import ArcanaServer.Matrix.Content
import ArcanaServer.StateRes.TopologicalSort

namespace ArcanaServer.StateRes

inductive RoomVersionId where
  | v1
  | v2
  | v3
  | v4
  | v5
  | v6
  | v7
  | v8
  | v9
  | v10
  | v11
  | v12
  | custom (version : String)
  deriving DecidableEq, Repr

inductive StateResolutionVersion where
  | v1
  | v2
  | v2_1
  deriving DecidableEq, Repr

/-- What the authorization rules of a room version depend on.  The flags that
no rule reads (disposition, event format, key validity, strict canonical JSON)
are left out. -/
structure RoomVersion where
  specialCaseAliasesAuth : Bool
  limitNotificationsPowerLevels : Bool
  extraRedactionChecks : Bool
  allowKnocking : Bool
  restrictedJoinRules : Bool
  knockRestrictedJoinRule : Bool
  integerPowerLevels : Bool
  useRoomCreateSender : Bool
  explicitlyPrivilegeRoomCreators : Bool
  roomIdsAsHashes : Bool
  deriving DecidableEq, Repr

namespace RoomVersion

def v1 : RoomVersion where
  specialCaseAliasesAuth := true
  limitNotificationsPowerLevels := false
  extraRedactionChecks := true
  allowKnocking := false
  restrictedJoinRules := false
  knockRestrictedJoinRule := false
  integerPowerLevels := false
  useRoomCreateSender := false
  explicitlyPrivilegeRoomCreators := false
  roomIdsAsHashes := false

def v2 : RoomVersion := v1

def v3 : RoomVersion := { v2 with extraRedactionChecks := false }

def v4 : RoomVersion := v3

def v5 : RoomVersion := v4

def v6 : RoomVersion :=
  { v5 with
    specialCaseAliasesAuth := false
    limitNotificationsPowerLevels := true }

def v7 : RoomVersion := { v6 with allowKnocking := true }

def v8 : RoomVersion := { v7 with restrictedJoinRules := true }

def v9 : RoomVersion := v8

def v10 : RoomVersion :=
  { v9 with
    knockRestrictedJoinRule := true
    integerPowerLevels := true }

def v11 : RoomVersion := { v10 with useRoomCreateSender := true }

def v12 : RoomVersion :=
  { v11 with
    explicitlyPrivilegeRoomCreators := true
    roomIdsAsHashes := true }

def new : RoomVersionId → Outcome RoomVersion
  | .v1 => .ok v1
  | .v2 => .ok v2
  | .v3 => .ok v3
  | .v4 => .ok v4
  | .v5 => .ok v5
  | .v6 => .ok v6
  | .v7 => .ok v7
  | .v8 => .ok v8
  | .v9 => .ok v9
  | .v10 => .ok v10
  | .v11 => .ok v11
  | .v12 => .ok v12
  | .custom version =>
      .error (.error (.unsupported ("found version `" ++ version ++ "`")))

end RoomVersion

/-- The algorithm that `resolve` picks.  Room version 1 is not in the first
list, so it gets the algorithm of version 12. -/
def stateResolutionVersion : RoomVersionId → StateResolutionVersion
  | .v2 | .v3 | .v4 | .v5 | .v6 | .v7 | .v8 | .v9 | .v10 | .v11 => .v2
  | _ => .v2_1

open ArcanaServer.Matrix Json

def orSerde {α : Type} : Option α → Outcome α
  | some value => .ok value
  | none => .error (.error .serdeJson)

def decodeEventLevels (value : Json) : Option (List (EventType × Int)) := do
  let fields ← value.asObject
  fields.mapM (fun field =>
    field.2.asInt.map (fun level => (EventType.ofString field.1, level)))

def decodeUserLevels (ruma : Ruma) (value : Json) :
    Option (List (UserId × Int)) := do
  let fields ← value.asObject
  fields.mapM (fun field =>
    if ruma.validUserId field.1 then
      field.2.asInt.map (fun level => (field.1, level))
    else none)

def decodeNotificationsRoom (value : Json) : Option Int := do
  let fields ← value.asObject
  decodeOr defaultPowerLevel asInt fields "room"

variable (ruma : Ruma) (content : Json)

def deserializeIntegerPowerLevels : Option RoomPowerLevelsEventContent := do
  let fields ← content.asObject
  let ban ← decodeOr defaultPowerLevel asInt fields "ban"
  let events ← decodeOr [] decodeEventLevels fields "events"
  let eventsDefault ← decodeOr 0 asInt fields "events_default"
  let invite ← decodeOr 0 asInt fields "invite"
  let kick ← decodeOr defaultPowerLevel asInt fields "kick"
  let redact ← decodeOr defaultPowerLevel asInt fields "redact"
  let stateDefault ← decodeOr defaultPowerLevel asInt fields
    "state_default"
  let users ← decodeOr [] (decodeUserLevels ruma) fields "users"
  let usersDefault ← decodeOr 0 asInt fields "users_default"
  let notificationsRoom ← decodeOr defaultPowerLevel decodeNotificationsRoom
    fields "notifications"
  return {
    ban, events, eventsDefault, invite, kick, redact, stateDefault, users,
    usersDefault, notificationsRoom }

def deserializeLegacyPowerLevels : Option RoomPowerLevelsEventContent :=
  ruma.roomPowerLevels content

def deserializePowerLevels (roomVersion : RoomVersion) :
    Option RoomPowerLevelsEventContent :=
  if roomVersion.integerPowerLevels then
    deserializeIntegerPowerLevels ruma content
  else deserializeLegacyPowerLevels ruma content

structure PowerLevelsContentFields where
  users : List (UserId × Int)
  usersDefault : Int

/-- The users are in the order of their identifiers, so that the binary search
of the source finds an entry whenever there is one. -/
def PowerLevelsContentFields.getUserPower (self : PowerLevelsContentFields)
    (userId : UserId) : Option Int :=
  self.users.lookup userId

def PowerLevelsContentFields.userLevel (self : PowerLevelsContentFields)
    (userId : UserId) : Int :=
  (self.getUserPower userId).getD self.usersDefault

def deserializeIntegerPowerLevelsContentFields :
    Option PowerLevelsContentFields := do
  let fields ← content.asObject
  let users ← decodeOr [] ruma.intPowerLevelValues fields "users"
  let usersDefault ← decodeOr 0 asInt fields "users_default"
  return { users, usersDefault }

def deserializeLegacyPowerLevelsContentFields :
    Option PowerLevelsContentFields := do
  let fields ← content.asObject
  let users ← decodeOr [] ruma.v1PowerLevelValues fields "users"
  let usersDefault ← decodeOr 0 ruma.v1PowerLevel fields "users_default"
  return { users, usersDefault }

def deserializePowerLevelsContentFields (roomVersion : RoomVersion) :
    Option PowerLevelsContentFields :=
  if roomVersion.integerPowerLevels then
    deserializeIntegerPowerLevelsContentFields ruma content
  else deserializeLegacyPowerLevelsContentFields ruma content

def deserializeLevel (ruma : Ruma) (name : String) (missing : Int)
    (content : Json) (roomVersion : RoomVersion) : Option Int := do
  let fields ← content.asObject
  if roomVersion.integerPowerLevels then
    decodeOr missing asInt fields name
  else decodeOr missing ruma.v1PowerLevel fields name

def deserializePowerLevelsContentInvite (ruma : Ruma) :
    Json → RoomVersion → Option Int :=
  deserializeLevel ruma "invite" 0

def deserializePowerLevelsContentRedact (ruma : Ruma) :
    Json → RoomVersion → Option Int :=
  deserializeLevel ruma "redact" defaultPowerLevel

def serializedLevels (content : RoomPowerLevelsEventContent) :
    List (String × Int × Int) :=
  [("ban", defaultPowerLevel, content.ban),
    ("events_default", 0, content.eventsDefault),
    ("invite", 0, content.invite),
    ("kick", defaultPowerLevel, content.kick),
    ("redact", defaultPowerLevel, content.redact),
    ("state_default", defaultPowerLevel, content.stateDefault),
    ("users_default", 0, content.usersDefault)]

def startsWith (sigil : Char) (identifier : String) : Bool :=
  identifier.toList.head? == some sigil

def joinRuleOf : String → JoinRule
  | "invite" => .invite
  | "knock" => .knock
  | "private" => .privateRoom
  | "restricted" => .restricted
  | "knock_restricted" => .knockRestricted
  | "public" => .publicRoom
  | name => .custom name

def stringField (content : Json) (name : String) : Option String := do
  let fields ← content.asObject
  let value ← fields.lookup name
  value.asStr

def plainIdentifiers : Ruma where
  validUserId := fun text =>
    startsWith '@' text && (serverName text).isSome
  userIdError := fun _ => "leading sigil is incorrect or missing"
  validEventId := startsWith '$'
  eventIdError := fun _ => "leading sigil is incorrect or missing"
  validRoomId := startsWith '!'
  validRoomVersionId := fun text => !text.isEmpty
  v1PowerLevel := asInt
  v1PowerLevelValues := fun _ => none
  intPowerLevelValues := fun _ => none
  roomPowerLevels := fun _ => none
  roomPowerLevelsToValue := fun content =>
    .obj (((serializedLevels content).filter
      (fun level => level.2.1 ≠ level.2.2)).map
        (fun level => (level.1, .int level.2.2)))
  roomCreate := fun content =>
    content.asObject.map (fun _ => { creator := stringField content "creator" })
  roomJoinRules := fun content =>
    (stringField content "join_rule").map joinRuleOf
  roomMember := fun content =>
    (stringField content "membership").map MembershipState.ofString
  thirdPartyInvite := fun content => do
    let fields ← content.asObject
    let signed ← fields.lookup "signed"
    let mxid ← stringField signed "mxid"
    let token ← stringField signed "token"
    return { mxid, token }
  roomThirdPartyInvite := fun _ => none
  parseBase64 := fun _ => none

def plainRuma : Ruma :=
  { plainIdentifiers with
    v1PowerLevelValues := decodeUserLevels plainIdentifiers
    intPowerLevelValues := decodeUserLevels plainIdentifiers
    roomPowerLevels := deserializeIntegerPowerLevels plainIdentifiers }

end ArcanaServer.StateRes
