import ArcanaServer.Library.Stateful
import ArcanaServer.Matrix.Event
import Mathlib.Data.List.AList
import Mathlib.Data.List.Dedup
import Mathlib.Logic.Function.Basic

namespace ArcanaServer.Keys

open Library ArcanaServer.Matrix Function

/-! The tables of device keys, cross-signing keys and one-time keys.  A stored
key id is the user with what stands behind the separator, which no user ID
contains. -/

abbrev DeviceId := String
abbrev KeyId := UserId × String

inductive Error where
  | database (message : String)
  | invalidParam (message : String)
  | notFound (message : String)
  | serdeJson
  deriving DecidableEq, Repr

/-- The metadata of a device that the answers to key queries name. -/
structure Device where
  deviceId : DeviceId
  displayName : Option String

structure CrossSigningKey where
  userId : UserId
  usage : List String
  keys : List (String × String)
  signatures : List (UserId × Json)

structure OneTimeKeyId where
  algorithm : String
  name : String
  deriving DecidableEq, Repr

/-- What the Matrix library reads and writes. -/
structure Format where
  validUserId : String → Bool
  decode : Json → Except String CrossSigningKey
  encode : CrossSigningKey → Json

structure KeyTables where
  keyidKey : KeyId → Option Json
  useridMasterkeyid : UserId → Option KeyId
  useridSelfsigningkeyid : UserId → Option KeyId
  useridUsersigningkeyid : UserId → Option KeyId
  userdeviceidMetadata : UserId → List (DeviceId × Device)
  onetimekeyidOnetimekeys : List ((UserId × DeviceId × OneTimeKeyId) × Json)
  useridLastonetimekeyupdate : UserId → Option Nat
  counter : Nat

def setField (fields : CanonicalJsonObject) (name : String) (value : Json) :
    CanonicalJsonObject :=
  fields.filter (fun field => field.1 != name) ++ [(name, value)]

section

variable (format : Format)

/-- The one key of a cross-signing key, with the texts of the errors. -/
def onlyKey (invalid : String → String) (empty several : String) (raw : Json) :
    Except Error (String × CrossSigningKey) :=
  match format.decode raw with
  | .error message => .error (.invalidParam (invalid message))
  | .ok key =>
      match key.keys.map Prod.snd with
      | [] => .error (.invalidParam empty)
      | [id] => .ok (id, key)
      | _ => .error (.invalidParam several)

def parseMasterKey (userId : UserId) (masterKey : Json) :
    Except Error (KeyId × CrossSigningKey) :=
  (onlyKey format (fun _ => "Invalid master key")
    "Master key contained no key." "Master key contained more than one key."
    masterKey).map (fun found => ((userId, found.1), found.2))

def parseSelfSigningKey (selfSigningKey : Json) : Except Error String :=
  (onlyKey format (fun message => "Invalid self signing key: " ++ message)
    "Self signing key contained no key."
    "Self signing key contained more than one key." selfSigningKey).map
    Prod.fst

def parseUserSigningKey (userSigningKey : Json) : Except Error String :=
  (onlyKey format (fun _ => "Invalid user signing key")
    "User signing key contained no key."
    "User signing key contained more than one key." userSigningKey).map
    Prod.fst

namespace KeyTables

variable (tables : KeyTables) (userId : UserId) (keyId : KeyId) (key : Json)

def putMaster : KeyTables :=
  { tables with
    keyidKey := update tables.keyidKey keyId (some key)
    useridMasterkeyid :=
      update tables.useridMasterkeyid userId (some keyId) }

def putSelfSigning : KeyTables :=
  { tables with
    keyidKey := update tables.keyidKey keyId (some key)
    useridSelfsigningkeyid :=
      update tables.useridSelfsigningkeyid userId (some keyId) }

def putUserSigning : KeyTables :=
  { tables with
    keyidKey := update tables.keyidKey keyId (some key)
    useridUsersigningkeyid :=
      update tables.useridUsersigningkeyid userId (some keyId) }

end KeyTables

/-- The keys that are stored stay stored when a later one is refused.  The
notice to those who share a room with the user is left out. -/
def addCrossSigningKeys (userId : UserId)
    (masterKey selfSigningKey userSigningKey : Option Json) :
    EStateM Error KeyTables Unit := do
  match masterKey with
  | none => pure ()
  | some key =>
      let (keyId, _) ← liftExcept (parseMasterKey format userId key)
      modify (fun tables => tables.putMaster userId keyId key)
  match selfSigningKey with
  | none => pure ()
  | some key =>
      let id ← liftExcept (parseSelfSigningKey format key)
      modify (fun tables => tables.putSelfSigning userId (userId, id) key)
  match userSigningKey with
  | none => pure ()
  | some key =>
      let id ← liftExcept (parseUserSigningKey format key)
      modify (fun tables => tables.putUserSigning userId (userId, id) key)

/-- Only the signatures of the user and of those that are allowed stay, unless
the user asks for their own key. -/
def cleanSignatures (crossSigningKey : Json) (senderUser : Option UserId)
    (userId : UserId) (allowedSignatures : UserId → Bool) :
    Except Error Json :=
  match crossSigningKey with
  | .obj fields =>
      match (fields.lookup "signatures").bind Json.asObject with
      | none => .ok crossSigningKey
      | some signatures =>
          if signatures.any (fun entry => !format.validUserId entry.1) then
            .error (.database "Invalid user ID in database.")
          else
            .ok (.obj (setField fields "signatures" (.obj (signatures.filter
              (fun entry => senderUser == some userId || entry.1 == userId ||
                allowedSignatures entry.1)))))
  | other => .ok other

/-- `get_key`; a read of the tables that fails is a missing row. -/
def getKey (tables : KeyTables) (keyId : KeyId) (senderUser : Option UserId)
    (userId : UserId) (allowedSignatures : UserId → Bool) :
    Except Error Json :=
  match tables.keyidKey keyId with
  | none => .error (.notFound "Not found in database")
  | some key => cleanSignatures format key senderUser userId allowedSignatures

def getKeyNamed (tables : KeyTables) (keyId : Option KeyId)
    (senderUser : Option UserId) (userId : UserId)
    (allowedSignatures : UserId → Bool) : Except Error Json :=
  match keyId with
  | none => .error (.notFound "Not found in database")
  | some keyId => getKey format tables keyId senderUser userId allowedSignatures

variable (tables : KeyTables) (senderUser : Option UserId) (userId : UserId)
  (allowedSignatures : UserId → Bool)

def getMasterKey : Except Error Json :=
  getKeyNamed format tables (tables.useridMasterkeyid userId) senderUser userId
    allowedSignatures

def getSelfSigningKey : Except Error Json :=
  getKeyNamed format tables (tables.useridSelfsigningkeyid userId) senderUser
    userId allowedSignatures

end

def getUserSigningKey (tables : KeyTables) (userId : UserId) : Option Json :=
  (tables.useridUsersigningkeyid userId).bind tables.keyidKey

def addUnsignedDeviceDisplayName (keys : Json) (metadata : Device)
    (includeDisplayNames : Bool) : Option Json :=
  match metadata.displayName with
  | none => some keys
  | some displayName => do
      let object ← keys.asObject
      let shown :=
        if includeDisplayNames then displayName else metadata.deviceId
      match (object.lookup "unsigned").getD (.obj []) with
      | .obj unsigned =>
          return .obj (setField object "unsigned"
            (.obj (setField unsigned "device_display_name" (.str shown))))
      | other => return .obj (setField object "unsigned" other)

def KeyTables.oneTimeKeyFor (tables : KeyTables) (userId : UserId)
    (deviceId : DeviceId) (algorithm : String) :
    Option ((UserId × DeviceId × OneTimeKeyId) × Json) :=
  tables.onetimekeyidOnetimekeys.find? (fun row =>
    row.1.1 == userId && row.1.2.1 == deviceId &&
      row.1.2.2.algorithm == algorithm)

def takeOneTimeKey (userId : UserId) (deviceId : DeviceId)
    (algorithm : String) : EStateM Error KeyTables (OneTimeKeyId × Json) := do
  modify (fun tables => { tables with
    counter := tables.counter + 1
    useridLastonetimekeyupdate := update
      tables.useridLastonetimekeyupdate userId (some (tables.counter + 1)) })
  match (← get).oneTimeKeyFor userId deviceId algorithm with
  | none => throw (.notFound "No one-time-key found")
  | some row =>
      modify (fun tables => { tables with
        onetimekeyidOnetimekeys := tables.onetimekeyidOnetimekeys.filter
          (fun other => other.1 != row.1) })
      return (row.1.2.2, row.2)

/-! Key queries and key claims.  The users of other servers are asked for at
their servers, whose responses are merged in the order in which they come. -/

abbrev UserMap (α : Type) := AList (fun _ : UserId => α)

abbrev DeviceKeysInput := List (UserId × List DeviceId)

abbrev OneTimeKeysInput := List (UserId × List (DeviceId × String))

abbrev DeviceKeys := List (DeviceId × Json)

abbrev OneTimeKeys := List (DeviceId × OneTimeKeyId × Json)

structure FederationKeys where
  masterKeys : UserMap Json
  selfSigningKeys : UserMap Json
  deviceKeys : UserMap DeviceKeys

structure KeysAnswer where
  masterKeys : UserId → Option Json
  selfSigningKeys : UserId → Option Json
  userSigningKeys : UserId → Option Json
  deviceKeys : UserId → Option DeviceKeys
  failures : ServerName → Option String

def KeysAnswer.empty : KeysAnswer :=
  ⟨fun _ => none, fun _ => none, fun _ => none, fun _ => none, fun _ => none⟩

structure ClaimAnswer where
  oneTimeKeys : UserId → Option OneTimeKeys
  failures : ServerName → Option String

structure Gathered (Answer : Type) where
  tables : KeyTables
  answer : Answer

abbrev Gather (Answer : Type) := EStateM Error (Gathered Answer)

/-- The name of this server, the Matrix library, and what the other servers
answer. -/
structure Federation where
  ourServer : ServerName
  format : Format
  getKeys : ServerName → DeviceKeysInput → Except String FederationKeys
  claimKeys : ServerName → OneTimeKeysInput →
    Except String (UserMap OneTimeKeys)

/-- What the caller of a key query may see. -/
structure Viewer where
  senderUser : Option UserId
  allowedSignatures : UserId → Bool
  includeDisplayNames : Bool

def extend {α : Type} (values : UserId → Option α) (added : UserMap α) :
    UserId → Option α :=
  fun user => (added.lookup user).or (values user)

section

variable {α : Type}

def userIsLocal (ourServer : ServerName) (userId : UserId) : Bool :=
  serverName userId == some ourServer

def askedServers (ourServer : ServerName) (input : List (UserId × α)) :
    List ServerName :=
  ((input.filter (fun entry => !userIsLocal ourServer entry.1)).filterMap
    (fun entry => serverName entry.1)).dedup

def requestTo (server : ServerName) (input : List (UserId × α)) :
    List (UserId × α) :=
  input.filter (fun entry => serverName entry.1 == some server)

end

def onTables {Answer α : Type} (action : EStateM Error KeyTables α) :
    Gather Answer α := fun gathered =>
  match action gathered.tables with
  | .ok value tables => .ok value { gathered with tables }
  | .error error tables => .error error { gathered with tables }

def answering {Answer : Type} (change : Answer → Answer) :
    Gather Answer Unit :=
  modify (fun gathered => { gathered with answer := change gathered.answer })

section

variable (federation : Federation) (viewer : Viewer)

/-- The keys of one device, with the text for keys without metadata. -/
def deviceEntry (tables : KeyTables) (missing : Error) (userId : UserId)
    (deviceId : DeviceId) : Except Error DeviceKeys :=
  match tables.keyidKey (userId, deviceId) with
  | none => .ok []
  | some keys =>
      match (tables.userdeviceidMetadata userId).lookup deviceId with
      | none => .error missing
      | some metadata =>
          match addUnsignedDeviceDisplayName keys metadata
            viewer.includeDisplayNames with
          | none => .error (.database "invalid device keys in database")
          | some keys => .ok [(deviceId, keys)]

def putDeviceKeys (userId : UserId) (container : DeviceKeys) :
    Gather KeysAnswer Unit :=
  answering (fun answer => { answer with
    deviceKeys := update answer.deviceKeys userId (some container) })

/-- For named devices each one gets a container of its own, which replaces that
of the device before it. -/
def localDevices (userId : UserId) (deviceIds : List DeviceId) :
    Gather KeysAnswer Unit := do
  let tables := (← get).tables
  if deviceIds.isEmpty then
    let containers ← liftExcept
      ((tables.userdeviceidMetadata userId).mapM (fun row =>
        deviceEntry viewer tables
          (.database "all_device_keys contained nonexistent device.") userId
          row.1))
    putDeviceKeys userId containers.flatten
  else
    deviceIds.forM (fun deviceId => do
      let container ← liftExcept (deviceEntry viewer tables
        (.invalidParam "Tried to get keys for nonexistent device.") userId
        deviceId)
      putDeviceKeys userId container)

def putRead {α : Type} (values : UserId → Option α) (userId : UserId)
    (read : Option α) : UserId → Option α :=
  match read with
  | none => values
  | some value => update values userId (some value)

def localCrossSigning (userId : UserId) : Gather KeysAnswer Unit := do
  let tables := (← get).tables
  let masterKey := getMasterKey federation.format tables viewer.senderUser
    userId viewer.allowedSignatures
  let selfSigningKey := getSelfSigningKey federation.format tables
    viewer.senderUser userId viewer.allowedSignatures
  let userSigningKey :=
    if viewer.senderUser = some userId then getUserSigningKey tables userId
    else none
  answering (fun answer => { answer with
    masterKeys := putRead answer.masterKeys userId masterKey.toOption
    selfSigningKeys :=
      putRead answer.selfSigningKeys userId selfSigningKey.toOption
    userSigningKeys := putRead answer.userSigningKeys userId userSigningKey })

def localKeys (input : DeviceKeysInput) : Gather KeysAnswer Unit :=
  input.forM (fun entry =>
    if userIsLocal federation.ourServer entry.1 then do
      localDevices viewer entry.1 entry.2
      localCrossSigning federation viewer entry.1
    else pure ())

def appendSignatures (masterKey ours : CrossSigningKey) : CrossSigningKey :=
  { masterKey with
    signatures := masterKey.signatures.filter (fun entry =>
      (ours.signatures.lookup entry.1).isNone) ++ ours.signatures }

def withOurSignatures (tables : KeyTables) (userId : UserId) (keyId : KeyId)
    (masterKey : CrossSigningKey) : Except Error CrossSigningKey :=
  match getKey federation.format tables keyId viewer.senderUser userId
    viewer.allowedSignatures with
  | .error _ => .ok masterKey
  | .ok ours => do
      let (_, ours) ← parseMasterKey federation.format userId ours
      return appendSignatures masterKey ours

def mergeMasterKey (userId : UserId) (masterKey : Json) :
    Gather KeysAnswer Unit := do
  let (keyId, parsed) ←
    liftExcept (parseMasterKey federation.format userId masterKey)
  let parsed ← liftExcept
    (withOurSignatures federation viewer (← get).tables userId keyId parsed)
  let raw := federation.format.encode parsed
  onTables (addCrossSigningKeys federation.format userId (some raw) none none)
  answering (fun answer => { answer with
    masterKeys := update answer.masterKeys userId (some raw) })

def mergeKeys (server : ServerName)
    (response : Except String FederationKeys) : Gather KeysAnswer Unit :=
  match response with
  | .ok response => do
      response.masterKeys.entries.forM (fun entry =>
        mergeMasterKey federation viewer entry.1 entry.2)
      answering (fun answer => { answer with
        selfSigningKeys :=
          extend answer.selfSigningKeys response.selfSigningKeys
        deviceKeys := extend answer.deviceKeys response.deviceKeys })
  | .error error =>
      answering (fun answer => { answer with
        failures := update answer.failures server (some error) })

def getKeysHelper (input : DeviceKeysInput) (arrived : List ServerName) :
    Gather KeysAnswer Unit := do
  localKeys federation viewer input
  arrived.forM (fun server => mergeKeys federation viewer server
    (federation.getKeys server (requestTo server input)))

end

section

variable (federation : Federation)

def takeInto (userId : UserId) (container : OneTimeKeys)
    (device : DeviceId × String) : EStateM Error KeyTables OneTimeKeys :=
  tryCatch (do
    let (keyId, key) ← takeOneTimeKey userId device.1 device.2
    pure (container.filter (fun entry => entry.1 != device.1) ++
      [(device.1, keyId, key)])) (fun _ => pure container)

def localOneTimeKeys (userId : UserId) (devices : List (DeviceId × String)) :
    EStateM Error KeyTables OneTimeKeys :=
  devices.foldlM (takeInto userId) []

/-- Users of other servers are looked up here too. -/
def localClaims (input : OneTimeKeysInput) : Gather ClaimAnswer Unit :=
  input.forM (fun entry => do
    let container ← onTables (localOneTimeKeys entry.1 entry.2)
    answering (fun answer => { answer with
      oneTimeKeys :=
        update answer.oneTimeKeys entry.1 (some container) }))

def mergeClaims (server : ServerName)
    (response : Except String (UserMap OneTimeKeys)) :
    Gather ClaimAnswer Unit :=
  answering (fun answer =>
    match response with
    | .ok keys =>
        { answer with oneTimeKeys := extend answer.oneTimeKeys keys }
    | .error error =>
        { answer with
          failures := update answer.failures server (some error) })

def claimKeysHelper (input : OneTimeKeysInput) (arrived : List ServerName) :
    Gather ClaimAnswer Unit := do
  localClaims input
  arrived.forM (fun server => mergeClaims server
    (federation.claimKeys server (requestTo server input)))

end

end ArcanaServer.Keys
