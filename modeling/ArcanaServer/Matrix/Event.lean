import Mathlib.Data.List.Basic

namespace ArcanaServer.Matrix

/-! Events and their JSON content, as the server holds them after parsing.
Identifiers are kept as the strings they are on the wire. -/

abbrev EventId := String
abbrev RoomId := String
abbrev UserId := String
abbrev ServerName := String
abbrev StateKey := String

/-- Parsed JSON.  `float` stands for every number that is not an integer. -/
inductive Json where
  | null
  | bool (value : Bool)
  | int (value : Int)
  | float
  | str (value : String)
  | arr (elements : List Json)
  | obj (fields : List (String × Json))

abbrev CanonicalJsonObject := List (String × Json)

namespace Json

def asStr : Json → Option String
  | .str value => some value
  | _ => none

def asArray : Json → Option (List Json)
  | .arr elements => some elements
  | _ => none

def asObject : Json → Option CanonicalJsonObject
  | .obj fields => some fields
  | _ => none

end Json

/-- The event types that the authorization rules distinguish. -/
inductive EventType where
  | roomCreate
  | roomMember
  | roomPowerLevels
  | roomJoinRules
  | roomThirdPartyInvite
  | roomAliases
  | roomRedaction
  | other (name : String)
  deriving DecidableEq, Repr

namespace EventType

def ofString : String → EventType
  | "m.room.create" => .roomCreate
  | "m.room.member" => .roomMember
  | "m.room.power_levels" => .roomPowerLevels
  | "m.room.join_rules" => .roomJoinRules
  | "m.room.third_party_invite" => .roomThirdPartyInvite
  | "m.room.aliases" => .roomAliases
  | "m.room.redaction" => .roomRedaction
  | name => .other name

end EventType

abbrev TypeStateKey := EventType × StateKey

instance typeStateKeyLawful : LawfulBEq TypeStateKey := inferInstance

/-- A persisted event.  Fields that no modelled function reads (hashes,
signatures, depth, unsigned data) are left out. -/
structure Pdu where
  eventId : EventId
  roomId : Option RoomId
  sender : UserId
  originServerTs : Nat
  kind : EventType
  content : Json
  stateKey : Option StateKey
  prevEvents : List EventId
  authEvents : List EventId
  redacts : Option EventId

/-- A message with nothing in it, from which examples make their events. -/
@[simps]
def Pdu.message (eventId : EventId) (roomId : RoomId) (sender : UserId) :
    Pdu where
  eventId
  roomId := some roomId
  sender
  originServerTs := 0
  kind := .other "m.room.message"
  content := .obj []
  stateKey := none
  prevEvents := []
  authEvents := []
  redacts := none

def afterColon : List Char → Option (List Char)
  | [] => none
  | ':' :: rest => some rest
  | _ :: rest => afterColon rest

def serverName (identifier : String) : Option ServerName :=
  (afterColon identifier.toList).map String.ofList

def replaceChar (old new : Char) (identifier : String) : String :=
  String.ofList (identifier.toList.map
    (fun char => if char = old then new else char))

end ArcanaServer.Matrix
