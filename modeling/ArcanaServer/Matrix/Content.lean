import ArcanaServer.Matrix.Event

namespace ArcanaServer.Matrix

/-! Event contents.  What the server decodes itself is written out here and in
the modules that read it; the decoders of the Matrix library are the fields of
`Ruma`. -/

abbrev Bytes := List UInt8

namespace Json

/-- A number of the Matrix library: an integer that a double holds exactly. -/
def asInt : Json → Option Int
  | .int value =>
      if -9007199254740991 ≤ value ∧ value ≤ 9007199254740991 then some value
      else none
  | _ => none

def asBool : Json → Option Bool
  | .bool value => some value
  | _ => none

end Json

/-- `Int::MAX`. -/
def maxInt : Int := 9007199254740991

/-- A field with a default for the case that it is missing. -/
def decodeOr {α : Type} (missing : α) (decode : Json → Option α)
    (fields : CanonicalJsonObject) (name : String) : Option α :=
  match fields.lookup name with
  | none => some missing
  | some value => decode value

/-- An optional field that is kept undecoded; `null` counts as missing. -/
def rawField (fields : CanonicalJsonObject) (name : String) : Option Json :=
  match fields.lookup name with
  | none => none
  | some .null => none
  | some value => some value

inductive MembershipState where
  | ban
  | invite
  | join
  | knock
  | leave
  | custom (name : String)
  deriving DecidableEq, Repr

namespace MembershipState

def ofString : String → MembershipState
  | "ban" => .ban
  | "invite" => .invite
  | "join" => .join
  | "knock" => .knock
  | "leave" => .leave
  | name => .custom name

def decode (value : Json) : Option MembershipState := value.asStr.map ofString

end MembershipState

/-- The join rules; the allow lists of the restricted rules are left out. -/
inductive JoinRule where
  | invite
  | knock
  | privateRoom
  | restricted
  | knockRestricted
  | publicRoom
  | custom (name : String)
  deriving DecidableEq, Repr

/-- The part of a third party invite that was signed by the identity server,
without its signatures. -/
structure ThirdPartyInvite where
  mxid : UserId
  token : String
  deriving DecidableEq, Repr

structure RoomThirdPartyInviteEventContent where
  publicKey : Bytes
  publicKeys : Option (List Bytes)

structure RoomCreateEventContent where
  creator : Option UserId

def defaultPowerLevel : Int := 50

structure RoomPowerLevelsEventContent where
  ban : Int
  events : List (EventType × Int)
  eventsDefault : Int
  invite : Int
  kick : Int
  redact : Int
  stateDefault : Int
  users : List (UserId × Int)
  usersDefault : Int
  notificationsRoom : Int
  deriving DecidableEq, Repr

/-- `RoomPowerLevelsEventContent::default()`. -/
def RoomPowerLevelsEventContent.default : RoomPowerLevelsEventContent where
  ban := defaultPowerLevel
  events := []
  eventsDefault := 0
  invite := 0
  kick := defaultPowerLevel
  redact := defaultPowerLevel
  stateDefault := defaultPowerLevel
  users := []
  usersDefault := 0
  notificationsRoom := defaultPowerLevel

/-- The identifier checks and content decoders of the Matrix library. -/
structure Ruma where
  validUserId : String → Bool
  userIdError : String → String
  validEventId : String → Bool
  eventIdError : String → String
  validRoomId : String → Bool
  validRoomVersionId : String → Bool
  v1PowerLevel : Json → Option Int
  v1PowerLevelValues : Json → Option (List (UserId × Int))
  intPowerLevelValues : Json → Option (List (UserId × Int))
  roomPowerLevels : Json → Option RoomPowerLevelsEventContent
  roomPowerLevelsToValue : RoomPowerLevelsEventContent → Json
  roomCreate : Json → Option RoomCreateEventContent
  roomJoinRules : Json → Option JoinRule
  roomMember : Json → Option MembershipState
  thirdPartyInvite : Json → Option ThirdPartyInvite
  roomThirdPartyInvite : Json → Option RoomThirdPartyInviteEventContent
  parseBase64 : String → Option Bytes

namespace Ruma

def decodeUserId (ruma : Ruma) (value : Json) : Option UserId :=
  value.asStr.filter ruma.validUserId

def decodeRoomVersionId (ruma : Ruma) (value : Json) : Option String :=
  value.asStr.filter ruma.validRoomVersionId

end Ruma

end ArcanaServer.Matrix
