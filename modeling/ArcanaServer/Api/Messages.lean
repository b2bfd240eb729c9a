import ArcanaServer.Timeline.RangeEnds

namespace ArcanaServer.Api.Messages

open Database Library ArcanaServer.Matrix Timeline

/-! The messages of a room, page by page. -/

/-- `TimelineEventType::to_cow_str`. -/
def eventTypeName : EventType → String
  | .roomCreate => "m.room.create"
  | .roomMember => "m.room.member"
  | .roomPowerLevels => "m.room.power_levels"
  | .roomJoinRules => "m.room.join_rules"
  | .roomThirdPartyInvite => "m.room.third_party_invite"
  | .roomAliases => "m.room.aliases"
  | .roomRedaction => "m.room.redaction"
  | .other name => name

inductive UrlFilter where
  | eventsWithUrl
  | eventsWithoutUrl
  deriving DecidableEq, Repr

structure RoomEventFilter where
  notSenders : List UserId
  senders : Option (List UserId)
  notRooms : List RoomId
  rooms : Option (List RoomId)
  notTypes : List String
  types : Option (List String)
  urlFilter : Option UrlFilter

namespace RoomEventFilter

variable (filter : RoomEventFilter) (event : Pdu)

/-- The room of the event is looked at only if there is one to compare it
with. -/
def anyRoom (roomId : Option RoomId) : List RoomId → Except String Bool
  | [] => .ok false
  | room :: rest =>
      match roomId with
      | none => .error "event has a room ID"
      | some roomId => .ok ((room :: rest).contains roomId)

def matchesRoom : Except String Bool := do
  if ← anyRoom event.roomId filter.notRooms then
    return false
  match filter.rooms with
  | none => return true
  | some rooms => anyRoom event.roomId rooms

def matchesSender : Bool := !filter.notSenders.contains event.sender &&
    filter.senders.all (fun senders => senders.contains event.sender)

def matchesType : Bool :=
  !filter.notTypes.contains (eventTypeName event.kind) &&
    filter.types.all (fun types => types.contains (eventTypeName event.kind))

def matchesUrl : Bool :=
  match filter.urlFilter with
  | none => true
  | some urlFilter =>
      let url := match event.content with
        | .obj fields => ((fields.lookup "url").bind Json.asStr).isSome
        | _ => false
      match urlFilter with
      | .eventsWithUrl => url
      | .eventsWithoutUrl => !url

/-- Without a value the filter panics. -/
def matches_ : Except String Bool :=
  if !filter.matchesSender event then .ok false
  else do
    if !(← filter.matchesRoom event) then
      return false
    return filter.matchesType event && filter.matchesUrl event

end RoomEventFilter

inductive HistoryVisibility where
  | invited
  | joined
  | worldReadable
  | shared
  deriving DecidableEq, Repr

/-- `isIgnoredMessageType` is the list of types that may be ignored, as the
Matrix library names them. -/
structure Services where
  ourServer : ServerName
  ignoreMessagesFromServerNames : ServerName → Bool
  sendMessagesFromIgnoredUsersToClient : Bool
  isIgnoredMessageType : EventType → Bool
  userIsIgnored : UserId → UserId → Bool
  pduShortstatehash : EventId → Option Nat
  historyVisibility : Nat → Option HistoryVisibility
  userWasInvited : Nat → UserId → Bool
  userWasJoined : Nat → UserId → Bool
  isJoined : UserId → RoomId → Bool

namespace Services

variable (services : Services) (userId : UserId) (event : Pdu)

def isRemoteServerIgnored (server : ServerName) : Bool :=
  server != services.ourServer && services.ignoreMessagesFromServerNames server

/-- An error is an event that is ignored. -/
def isIgnoredPdu : Bool :=
  if eventTypeName event.kind = "org.matrix.dummy_event" then true
  else if !services.isIgnoredMessageType event.kind then false
  else if (serverName event.sender).any services.isRemoteServerIgnored then
    true
  else services.userIsIgnored event.sender userId &&
    !services.sendMessagesFromIgnoredUsersToClient

def roomIdOrHash : Except String RoomId :=
  match event.roomId with
  | some roomId => .ok roomId
  | none =>
      if event.kind = .roomCreate then
        .ok (replaceChar '$' '!' event.eventId)
      else .error "Event must have a room ID"

def userCanSeeEvent (roomId : RoomId) (eventId : EventId) : Bool :=
  match services.pduShortstatehash eventId with
  | none => true
  | some shortstatehash =>
      match (services.historyVisibility shortstatehash).getD .shared with
      | .invited => services.userWasInvited shortstatehash userId
      | .joined => services.userWasJoined shortstatehash userId
      | .worldReadable => true
      | .shared => services.isJoined userId roomId

def shows (filter : RoomEventFilter) : Except String Bool := do
  if !(← filter.matches_ event) then
    return false
  if services.isIgnoredPdu userId event then
    return false
  return services.userCanSeeEvent userId (← roomIdOrHash event) event.eventId

end Services

structure Request where
  senderUser : UserId
  roomId : RoomId
  from_ : Option String
  to_ : Option String
  dir : Direction
  limit : Nat
  filter : RoomEventFilter

/-- The members of lazy loading are left out, and `events` stand for the chunk:
the formats of the events and their counts. -/
structure Response where
  start : String
  end_ : Option String
  events : List (PduCount × Pdu)

inductive Error where
  | forbidden (message : String)
  | parseInt (token : String)
  | read (error : ReadError)
  | panic (message : String)

/-- What a request meets: the answer to a backfill, and how many events the
stages of the stream read ahead of the last one that is taken. -/
structure Circumstances where
  backfill : BackfillAnswer
  ahead : Nat

def limitMax : Nat := 100

def limitDefault : Nat := 10

def parseCount (token : String) : Except Error PduCount :=
  match countFromStr token with
  | none => .error (.parseInt token)
  | some count => .ok count

def Request.fromCount (body : Request) : Except Error PduCount :=
  match body.from_ with
  | some token => parseCount token
  | none =>
      match body.dir with
      | .forward => .ok .min
      | .backward => .ok .max

def Request.toCount (body : Request) : Except Error (Option PduCount) :=
  match body.to_ with
  | some token => (parseCount token).map some
  | none => .ok none

def Request.pageLimit (body : Request) : Nat :=
  min (if body.limit < 2 ^ 64 then body.limit else limitDefault) limitMax

def readLength {α : Type} (shown : α → Bool) : Nat → List α → Nat
  | 0, _ => 0
  | _ + 1, [] => 0
  | limit + 1, item :: rest =>
      if shown item then readLength shown limit rest + 1
      else readLength shown (limit + 1) rest + 1

section

variable (services : Services) (circumstances : Circumstances)

variable (body : Request)

def isShown (item : PduCount × Pdu) : Bool :=
  match services.shows body.senderUser item.2 body.filter with
  | .ok shown => shown
  | .error _ => false

def panics (item : PduCount × Pdu) : Option String :=
  match services.shows body.senderUser item.2 body.filter with
  | .ok _ => none
  | .error message => some message

variable (to_ : Option PduCount) (items : List (PduCount × Pdu))

def beforeBound : List (PduCount × Pdu) :=
  items.takeWhile (fun item => some item.1 ≠ to_)

def readItems : List (PduCount × Pdu) :=
  items.take (readLength (isShown services body) body.pageLimit items +
    circumstances.ahead)

def takePage : Except Error (List (PduCount × Pdu)) :=
  let within := beforeBound to_ items
  match (readItems services circumstances body within).findSome?
    (panics services body) with
  | some message => .error (.panic message)
  | none => .ok ((within.filter (isShown services body)).take body.pageLimit)

def requireRoom (roomId : RoomId) : EStateM Error Backlog Unit := do
  refuseIf (!(← get).data.roomExists roomId)
    (.forbidden "Room does not exist to this server")

def backfill (from_ : PduCount) : EStateM Error Backlog Unit := do
  match body.dir with
  | .forward => pure ()
  | .backward =>
      set (← liftExcept (((← get).backfillIfRequired body.roomId from_
        circumstances.backfill).mapError Error.read))

def getMessageEventsRoute : EStateM Error Backlog Response := do
  requireRoom body.roomId
  let from_ ← liftExcept body.fromCount
  let to_ ← liftExcept body.toCount
  backfill circumstances body from_
  let items := (← get).range body.roomId body.dir from_
  let events ← liftExcept (takePage services circumstances body to_ items)
  pure {
    start := countToString from_
    end_ := events.getLast?.map (fun event => countToString event.1)
    events }

end

end ArcanaServer.Api.Messages
