import ArcanaServer.Timeline.LoadTimeline
import ArcanaServer.Rooms.UpdateMembership
import ArcanaServer.StateRes.EventAuth
import Mathlib.Data.String.Basic

namespace ArcanaServer.Timeline

open Library ArcanaServer.Matrix Rooms Function

/-! The tables behind a room's timeline, and how an event is appended to it. -/

/-- The tables.  `pdus` holds what `get_pdu` finds, in the timeline or among the
outliers. -/
structure RoomWorld (Digest : Type) where
  store : Store Digest
  pdus : EventId → Option Pdu
  roomidShortroomid : RoomId → Option ShortId
  eventidPduid : EventId → Option (RoomId × Nat)
  timeline : RoomId → List (Nat × Pdu)
  pduleaves : RoomId → Finset EventId
  referencedevents : RoomId → EventId → Bool
  softfailedeventids : EventId → Bool

/-- Why an event is refused, with the errors of the other services as texts. -/
inductive Refusal where
  | softFailed
  | noRoomVersion
  | authCheck (error : Option StateRes.Error)
  | failsWithState
  | roomMissing
  | store (failure : Rooms.Failure)
  | panic (message : String)
  | other (message : String)
  deriving Repr

section

variable {Digest : Type} [DecidableEq Digest]

abbrev Acting (Digest : Type) := EStateM Refusal (RoomWorld Digest)

namespace RoomWorld

def empty (cacheCapacity : Nat) : RoomWorld Digest where
  store := Store.empty cacheCapacity
  pdus := fun _ => none
  roomidShortroomid := fun _ => none
  eventidPduid := fun _ => none
  timeline := fun _ => []
  pduleaves := fun _ => ∅
  referencedevents := fun _ _ => false
  softfailedeventids := fun _ => false

variable (world : RoomWorld Digest)

/-- The leaves in the order of their keys. -/
def getForwardExtremities (roomId : RoomId) : List EventId :=
  (world.pduleaves roomId).sort

def setForwardExtremities (roomId : RoomId) (eventIds : List EventId) :
    RoomWorld Digest :=
  { world with
    pduleaves := update world.pduleaves roomId eventIds.toFinset }

def markAsReferenced (roomId : RoomId) (eventIds : List EventId) :
    RoomWorld Digest :=
  { world with
    referencedevents := update world.referencedevents roomId
      (fun eventId => world.referencedevents roomId eventId ||
        eventIds.contains eventId) }

def markEventSoftFailed (eventId : EventId) : RoomWorld Digest :=
  { world with
    softfailedeventids :=
      update world.softfailedeventids eventId true }

def insertPdu (roomId : RoomId) (count : Nat) (pdu : Pdu) : RoomWorld Digest :=
  { world with
    pdus := update world.pdus pdu.eventId (some pdu)
    eventidPduid :=
      update world.eventidPduid pdu.eventId (some (roomId, count))
    timeline := update world.timeline roomId
      (world.timeline roomId ++ [(count, pdu)]) }

def nextCount : Nat × RoomWorld Digest :=
  let (count, short) := world.store.short.nextCount
  (count, { world with store := { world.store with short } })

end RoomWorld

def onStore {α : Type}
    (operation : Store Digest → Except Rooms.Failure α × Store Digest) :
    Acting Digest α := fun world =>
  match operation world.store with
  | (.ok value, store) => .ok value { world with store }
  | (.error failure, store) => .error (.store failure) { world with store }

/-- The append itself.  `finish` is what follows the insertion (notifications,
redactions, relations, membership caches); it may fail, but it leaves these
tables alone. -/
def appendPdu (finish : RoomWorld Digest → Pdu → Except Refusal Unit)
    (pdu : Pdu) (leaves : List EventId) (roomId : RoomId) :
    Acting Digest (RoomId × Nat) := do
  refuseIf ((← get).roomidShortroomid roomId).isNone .roomMissing
  modify (fun world => world.markAsReferenced roomId pdu.prevEvents)
  modify (fun world => world.setForwardExtremities roomId leaves)
  modify (fun world => world.nextCount.2)
  let count ← modifyGet (fun world => world.nextCount)
  modify (fun world => world.insertPdu roomId count pdu)
  liftExcept (finish (← get) pdu)
  return (roomId, count)

def appendIncomingPdu (calculateHash : List CompressedStateEvent → Digest)
    (finish : RoomWorld Digest → Pdu → Except Refusal Unit)
    (pdu : Pdu) (newRoomLeaves : List EventId)
    (stateIdsCompressed : CompressedState) (softFail : Bool)
    (roomId : RoomId) : Acting Digest (Option (RoomId × Nat)) := do
  let _ ← onStore (fun store =>
    store.setEventState calculateHash pdu.eventId roomId stateIdsCompressed)
  if softFail then
    modify (fun world => world.markAsReferenced roomId pdu.prevEvents)
    return none
  else
    let pduId ← appendPdu finish pdu newRoomLeaves roomId
    return some pduId

end

open StateRes (RoomVersion RoomVersionId authCheck roomIdOrHash)

section

variable {Digest : Type} [DecidableEq Digest]

structure PduBuilder where
  eventType : EventType
  content : Json
  stateKey : Option StateKey
  redacts : Option EventId
  timestamp : Option Nat

/-- The fields of a membership that the build checks. -/
structure MemberContent where
  membership : MembershipState
  joinAuthorizedViaUsersServer : Option UserId

/-- What the build asks of the rest of the server.  `hashAndSignEvent` answers
with the id of the signed event, or refuses an event that is too large. -/
structure Building (Digest : Type) where
  ruma : Ruma
  userIsLocal : UserId → Bool
  createdVersion : Json → Option RoomVersionId
  getRoomVersion : RoomWorld Digest → RoomId → Option RoomVersionId
  getAuthEvents : RoomWorld Digest → RoomId → PduBuilder → UserId →
    RoomVersion → Except Refusal (List (TypeStateKey × Pdu))
  getCreateEvent : RoomWorld Digest → RoomId → Option Pdu
  millisSinceUnixEpoch : RoomWorld Digest → Nat
  hashAndSignEvent : Pdu → RoomVersionId → Except Refusal EventId
  askPolicyServer : RoomWorld Digest → Pdu → RoomId → Except Refusal Bool
  checkPduForAdminRoom : RoomWorld Digest → Pdu → RoomId → Except Refusal Unit
  redactionContent : Json → Except Refusal (Option EventId)
  memberContent : Json → Except Refusal MemberContent
  userCanRedact : RoomWorld Digest → EventId → UserId → RoomId →
    Except Refusal Bool
  finish : RoomWorld Digest → Pdu → Except Refusal Unit
  processCommands : RoomWorld Digest → Pdu → Except Refusal Unit
  sendPduServers : RoomWorld Digest → Pdu → Except Refusal Unit

def RoomWorld.getOrCreateShortroomid (world : RoomWorld Digest)
    (roomId : RoomId) : RoomWorld Digest :=
  match world.roomidShortroomid roomId with
  | some _ => world
  | none =>
      let (fresh, world) := world.nextCount
      { world with
        roomidShortroomid :=
          update world.roomidShortroomid roomId (some fresh) }

def orRefuse {α : Type} (refusal : Refusal) : Option α → Except Refusal α
  | some value => .ok value
  | none => .error refusal

namespace Building

variable (building : Building Digest)

def roomVersionFromEvent (builder : PduBuilder) :
    Except Refusal RoomVersionId :=
  if builder.eventType = .roomCreate then
    orRefuse (.other "bad create content")
      (building.createdVersion builder.content)
  else .error (.other "non-create event for room of unknown version")

section

variable (world : RoomWorld Digest)

def roomVersionId (builder : PduBuilder) :
    Option RoomId → Except Refusal RoomVersionId
  | none => building.roomVersionFromEvent builder
  | some roomId =>
      match building.getRoomVersion world roomId with
      | some version => .ok version
      | none => building.roomVersionFromEvent builder

/-- A new event points to at most twenty leaves of the room. -/
def prevEvents : Option RoomId → List EventId
  | some roomId => (world.getForwardExtremities roomId).take 20
  | none => []

variable (builder : PduBuilder) (sender : UserId)

def authEvents (roomVersion : RoomVersion) :
    Option RoomId → Except Refusal (List (TypeStateKey × Pdu))
  | some roomId =>
      building.getAuthEvents world roomId builder sender roomVersion
  | none => .ok []

def fromOutcome {α : Type} : StateRes.Outcome α → Except Refusal α
  | .ok value => .ok value
  | .error (.error error) => .error (.authCheck (some error))
  | .error (.panic message) => .error (.panic message)

variable (pdu : Pdu)

def createEventFor : Except Refusal Pdu :=
  if pdu.kind = .roomCreate then .ok pdu
  else do
    let roomId ← fromOutcome (roomIdOrHash building.ruma pdu)
    orRefuse (.other "Failed to fetch room create event")
      (building.getCreateEvent world roomId)

def createEvent (roomId : Option RoomId) :
    Except Refusal (Pdu × RoomVersionId) := do
  let roomVersionId ← building.roomVersionId world builder roomId
  let roomVersion ← fromOutcome (RoomVersion.new roomVersionId)
  let authEvents ← building.authEvents world builder sender roomVersion roomId
  let pdu : Pdu := {
    eventId := "$thiswillbefilledinlater"
    roomId
    sender
    originServerTs :=
      builder.timestamp.getD (building.millisSinceUnixEpoch world)
    kind := builder.eventType
    content := builder.content
    stateKey := builder.stateKey
    prevEvents := prevEvents world roomId
    authEvents := authEvents.map (fun entry => entry.2.eventId)
    redacts := builder.redacts }
  let createEvent ← building.createEventFor world pdu
  let passed ← fromOutcome (authCheck building.ruma roomVersion pdu none
    (fun kind stateKey => authEvents.lookup (kind, stateKey)) createEvent)
  if passed then return (pdu, roomVersionId)
  else throw (.other "Event is not authorized.")

/-- Whether the policy server turns the event down; a server that fails does
not. -/
def isSpam : Option RoomId → Bool
  | none => false
  | some roomId =>
      match building.askPolicyServer world pdu roomId with
      | .ok false => true
      | _ => false

def createHashAndSignEvent (roomId : Option RoomId) : Except Refusal Pdu := do
  if !building.userIsLocal sender then
    throw (.other "Sender must be a local user")
  else
    let (pdu, roomVersionId) ← building.createEvent world builder sender roomId
    let eventId ← building.hashAndSignEvent pdu roomVersionId
    let pdu := { pdu with eventId }
    if building.isSpam world pdu roomId then
      throw (.other "Policy server marked this event as spam")
    else return pdu

/-- `pdu.redacts()` up to version 10, the content's field from version 11 on. -/
def redactedBy : RoomVersionId → Except Refusal (Option EventId)
  | .v11 | .v12 | .custom _ => building.redactionContent pdu.content
  | _ => .ok pdu.redacts

def checkRedaction (roomId : RoomId) : Except Refusal Unit := do
  if pdu.kind = .roomRedaction then
    let version ← orRefuse (.other "No create event found")
      (building.getRoomVersion world roomId)
    match ← building.redactedBy pdu version with
    | none => return ()
    | some redactId =>
        let allowed ← building.userCanRedact world redactId pdu.sender roomId
        if allowed then return ()
        else throw (.other "User cannot redact this event.")
  else return ()

def checkMember : Except Refusal Unit := do
  if pdu.kind = .roomMember then
    let content ← building.memberContent pdu.content
    match content.joinAuthorizedViaUsersServer with
    | none => return ()
    | some authorisingUser =>
        if content.membership ≠ .join then
          throw (.other
            "join_authorised_via_users_server is only for member joins")
        else if building.userIsLocal authorisingUser then return ()
        else throw (.other
          "Authorising user does not belong to this homeserver")
  else return ()

/-- The checks of an event that is signed already; the answer is its room. -/
def checkBuilt : Except Refusal RoomId := do
  let roomId ← fromOutcome (roomIdOrHash building.ruma pdu)
  building.checkPduForAdminRoom world pdu roomId
  building.checkRedaction world pdu roomId
  building.checkMember pdu
  return roomId

end

/-- Appends a signed event to its room.  The room state is set after the event
is inserted. -/
def appendBuilt (pdu : Pdu) (roomId : RoomId) : Acting Digest EventId := do
  modify (fun world =>
    if pdu.kind = .roomCreate then world.getOrCreateShortroomid roomId
    else world)
  let statehashid ← onStore (fun store => store.appendToState pdu roomId)
  let _ ← appendPdu building.finish pdu [pdu.eventId] roomId
  liftExcept (building.processCommands (← get) pdu)
  modify (fun world =>
    { world with store := world.store.setRoomState roomId statehashid })
  liftExcept (building.sendPduServers (← get) pdu)
  return pdu.eventId

def buildAndAppendPdu (builder : PduBuilder) (sender : UserId)
    (roomId : Option RoomId) : Acting Digest EventId := do
  let pdu ← liftExcept
    (building.createHashAndSignEvent (← get) builder sender roomId)
  modify (fun world => { world with
    store := { world.store with
      short := (world.store.short.getOrCreateShorteventid pdu.eventId).2 } })
  let roomId ← liftExcept (building.checkBuilt (← get) pdu)
  building.appendBuilt pdu roomId

end Building

end

open StateRes (RoomVersion RoomVersionId roomIdOrHash)

/-! The steps of `append_pdu`, with the tables that each of them writes. -/

abbrev PduId := RoomId × Nat

inductive PduCount where
  | normal (count : Nat)
  | backfilled (count : Nat)
  deriving DecidableEq, Repr

inductive AppendError where
  | database (message : String)
  | badJson (message : String)
  | forbidden (message : String)
  | invalidParam (message : String)
  | notFound (message : String)
  | userId (message : String)
  | redaction (message : String)
  | stateRes (failure : StateRes.Failure)
  | member (error : MemberError)
  | sending (message : String)
  deriving DecidableEq, Repr

/-- `backfilled` tells whose place in the timeline is a backfilled one. -/
structure TimelineWorld (Digest : Type) where
  room : RoomWorld Digest
  members : MemberTables
  backfilled : EventId → Bool
  privateread : RoomId × UserId → Option Nat
  lastprivatereadupdate : RoomId × UserId → Option Nat
  highlightcount : UserRoom → Nat
  notificationcount : UserRoom → Nat
  lastnotificationread : RoomId × UserId → Option Nat
  tokenids : ShortId × String × PduId → Bool
  tofromRelation : Nat × Nat → Bool
  threadidUserids : PduId → Option (List UserId)
  roomidSpacehierarchyCache : Finset RoomId
  queuedPdus : List (String × PduId)

structure CreateContent where
  roomVersion : RoomVersionId
  additionalCreators : Option (List UserId)

/-- What a content relates to, as the Matrix library reads it. -/
inductive Relation where
  | reply (inReplyTo : EventId)
  | thread (root : EventId)
  | other
  deriving DecidableEq, Repr

/-- What the other services, the Matrix library and the application services
answer during one call.  `redactContent` and `canonicalPdu` are the two parts
of a redaction that can fail. -/
structure AppendServices where
  ruma : Ruma
  members : MemberServices
  prevContent : Pdu → Option Json
  canonicalObject : Json → Except String Unit
  roomStateGet : RoomId → TypeStateKey → Option Pdu
  createContent : Json → Option CreateContent
  roomRedaction : Json → Option (Option EventId)
  userCanRedactOwnEvent : RoomPowerLevelsEventContent → UserId → Bool
  userCanRedactEventOfOther : RoomPowerLevelsEventContent → UserId → Bool
  redactContent : RoomVersionId → EventType → Json → Except AppendError Json
  canonicalPdu : Pdu → Pdu → Except String Unit
  relation : Json → Option Relation
  tokenize : String → List String
  notified : Pdu → List UserId × List UserId
  interested : Pdu → RoomId → List String
  dispatch : String → Except String Unit

def roomMessage : EventType := .other "m.room.message"

def spaceChild : EventType := .other "m.space.child"

def roomServerAcl : EventType := .other "m.room.server_acl"

/-- `ExtractBody`: a body that is there has to be a string or null. -/
def extractBody (content : Json) : Option (Option String) := do
  let fields ← content.asObject
  match fields.lookup "body" with
  | none | some .null => return none
  | some value => return some (← value.asStr)

/-- `ExtractRelatesToEventId`. -/
def extractRelatesToEventId (ruma : Ruma) (content : Json) :
    Option EventId := do
  let fields ← content.asObject
  let relatesTo ← fields.lookup "m.relates_to"
  let inner ← relatesTo.asObject
  let eventId ← inner.lookup "event_id"
  (← eventId.asStr) |> some |>.filter ruma.validEventId

section

variable {Digest : Type}

abbrev Appending (Digest : Type) := EStateM AppendError (TimelineWorld Digest)

namespace TimelineWorld

def onRoom (change : RoomWorld Digest → RoomWorld Digest)
    (world : TimelineWorld Digest) : TimelineWorld Digest :=
  { world with room := change world.room }

variable (world : TimelineWorld Digest)

def pduCount (eventId : EventId) : Option PduCount :=
  (world.room.eventidPduid eventId).map (fun pduId =>
    if world.backfilled eventId then .backfilled pduId.2
    else .normal pduId.2)

def nextCount : Nat × TimelineWorld Digest :=
  (world.room.nextCount.1, { world with room := world.room.nextCount.2 })

def privateReadSet (roomId : RoomId) (userId : UserId) (count : Nat)
    (world : TimelineWorld Digest) : TimelineWorld Digest :=
  let (fresh, world) := world.nextCount
  { world with
    privateread :=
      update world.privateread (roomId, userId) (some count)
    lastprivatereadupdate :=
      update world.lastprivatereadupdate (roomId, userId)
        (some fresh) }

def resetNotificationCounts (userId : UserId) (roomId : RoomId)
    (world : TimelineWorld Digest) : TimelineWorld Digest :=
  let (fresh, world) := world.nextCount
  { world with
    highlightcount := update world.highlightcount (userId, roomId) 0
    notificationcount :=
      update world.notificationcount (userId, roomId) 0
    lastnotificationread :=
      update world.lastnotificationread (roomId, userId) (some fresh) }

def increment (counts : UserRoom → Nat) (roomId : RoomId) (userId : UserId) :
    UserRoom → Nat :=
  update counts (userId, roomId) (counts (userId, roomId) + 1)

def incrementNotificationCounts (roomId : RoomId)
    (notifies highlights : List UserId) (world : TimelineWorld Digest) :
    TimelineWorld Digest :=
  { world with
    notificationcount := notifies.foldl (fun counts userId =>
      increment counts roomId userId) world.notificationcount
    highlightcount := highlights.foldl (fun counts userId =>
      increment counts roomId userId) world.highlightcount }

def insertPdu (roomId : RoomId) (count : Nat) (pdu : Pdu)
    (world : TimelineWorld Digest) : TimelineWorld Digest :=
  { world with
    room := world.room.insertPdu roomId count pdu
    backfilled := update world.backfilled pdu.eventId false }

def addRelation (first target : PduCount) (world : TimelineWorld Digest) :
    TimelineWorld Digest :=
  match first, target with
  | .normal first, .normal target =>
      { world with
        tofromRelation :=
          update world.tofromRelation (target, first) true }
  | _, _ => world

variable (words : List String) (shortroomid : ShortId) (pduId : PduId)
  (world : TimelineWorld Digest)

def indexPdu : TimelineWorld Digest :=
  { world with
    tokenids := words.foldl (fun tokens word =>
      update tokens (shortroomid, word, pduId) true) world.tokenids }

def deindexPdu : TimelineWorld Digest :=
  { world with
    tokenids := words.foldl (fun tokens word =>
      update tokens (shortroomid, word, pduId) false) world.tokenids }

/-- The row under `pduId`, which is what `get_pdu` finds for the event. -/
def replacePdu (eventId : EventId) (pduId : PduId) (pdu : Pdu)
    (world : TimelineWorld Digest) : TimelineWorld Digest :=
  { world with room := { world.room with
      pdus := update world.room.pdus eventId (some pdu)
      timeline := update world.room.timeline pduId.1
        ((world.room.timeline pduId.1).map (fun entry =>
          if entry.1 = pduId.2 then (entry.1, pdu) else entry)) } }

def updateParticipants (root : PduId) (userIds : List UserId)
    (world : TimelineWorld Digest) : TimelineWorld Digest :=
  { world with
    threadidUserids :=
      update world.threadidUserids root (some userIds) }

def queuePdu (appserviceId : String) (pduId : PduId)
    (world : TimelineWorld Digest) : TimelineWorld Digest :=
  { world with queuedPdus := world.queuedPdus ++ [(appserviceId, pduId)] }

def memberTables : MemberTables :=
  world.members.onCache
    fun cache => { cache with counter := world.room.store.short.counter }

def withMembers (members : MemberTables) : TimelineWorld Digest :=
  { world with
    members
    room := { world.room with store := { world.room.store with
      short := { world.room.store.short with
        counter := members.cache.counter } } } }

end TimelineWorld

open TimelineWorld

namespace AppendServices

variable (services : AppendServices)

/-- The previous content goes into the unsigned data as canonical JSON. -/
def checkPrevContent (pdu : Pdu) : Except AppendError Unit :=
  match pdu.stateKey.bind (fun _ => services.prevContent pdu) with
  | none => .ok ()
  | some content =>
      match services.canonicalObject content with
      | .ok () => .ok ()
      | .error error => .error (.database
          ("Failed to convert prev_state to canonical JSON: " ++ error))

/-- The state key of a member event is parsed before the notifications. -/
def checkTarget (pdu : Pdu) : Except AppendError Unit :=
  match pdu.stateKey.filter (fun _ => pdu.kind = .roomMember) with
  | none => .ok ()
  | some stateKey =>
      if services.ruma.validUserId stateKey then .ok ()
      else .error (.userId (services.ruma.userIdError stateKey))

def badContent (content : Json) : AppendError :=
  .badJson ("Failed to deserialize content into type: " ++
    services.members.contentError content)

def getRoomVersion (roomId : RoomId) : Except AppendError RoomVersionId :=
  match (services.roomStateGet roomId (.roomCreate, "")).bind
      (fun create => services.createContent create.content) with
  | some content => .ok content.roomVersion
  | none => .error (.notFound "No create event found")

/-- `pdus` answers `get_pdu`. -/
def userCanRedact (pdus : EventId → Option Pdu) (redacts : EventId)
    (sender : UserId) (roomId : RoomId) : Except AppendError Bool := do
  let redacting := pdus redacts
  if redacting.any (fun pdu => pdu.kind = .roomCreate) then
    throw (.forbidden
      "Redacting m.room.create is not safe, forbidding.")
  if redacting.any (fun pdu => pdu.kind = roomServerAcl) then
    throw (.forbidden ("Redacting m.room.server_acl will result in the room " ++
      "being inaccessible for everyone (empty allow key), forbidding."))
  let some create := services.roomStateGet roomId (.roomCreate, "")
    | throw (.notFound "Not found in room state")
  let some content := services.createContent create.content
    | throw (.badJson (services.members.contentError create.content))
  let roomFeatures ←
    (RoomVersion.new content.roomVersion).mapError AppendError.stateRes
  if roomFeatures.explicitlyPrivilegeRoomCreators && (sender = create.sender ||
        content.additionalCreators.any (fun creators =>
          creators.contains sender)) then
    return true
  let own := redacting.any (fun pdu => pdu.sender = sender)
  match (services.roomStateGet roomId (.roomPowerLevels, "")).bind
      (fun levels => services.ruma.roomPowerLevels levels.content) with
  | some levels =>
      return services.userCanRedactEventOfOther levels sender ||
        services.userCanRedactOwnEvent levels sender && own
  | none => return create.sender = sender || own

/-- From room version 11 on the event to redact is named in the content. -/
def redactId (pdu : Pdu) (roomId : RoomId) :
    Except AppendError (Option EventId) := do
  match ← services.getRoomVersion roomId with
  | .v1 | .v2 | .v3 | .v4 | .v5 | .v6 | .v7 | .v8 | .v9 | .v10 =>
      return pdu.redacts
  | _ =>
      let some redacts := services.roomRedaction pdu.content
        | throw (services.badContent pdu.content)
      return redacts

def redactedForm (target reason : Pdu) : Except AppendError Pdu := do
  let roomId ← (roomIdOrHash services.ruma target).mapError AppendError.stateRes
  let roomVersionId ← services.getRoomVersion roomId
  let content ← services.redactContent roomVersionId target.kind target.content
  let redacted := { target with content }
  match services.canonicalPdu redacted reason with
  | .ok () => return redacted
  | .error error => throw (.database
      ("Failed to convert PDU to canonical JSON: " ++ error))

def replaceRedacted (eventId : EventId) (pduId : PduId)
    (target reason : Pdu) : Appending Digest Unit := do
  let redacted ← liftExcept (services.redactedForm target reason)
  modify (replacePdu eventId pduId redacted)

def redactPdu (eventId : EventId) (reason : Pdu) (shortroomid : ShortId) :
    Appending Digest Unit := do
  let world ← get
  match world.room.eventidPduid eventId with
  | none => pure ()
  | some pduId =>
      match world.room.pdus eventId with
      | none => throw (.database "PDU ID points to invalid PDU.")
      | some target =>
          let words :=
            ((extractBody target.content).join.map services.tokenize).getD []
          modify (deindexPdu words shortroomid pduId)
          services.replaceRedacted eventId pduId target reason

variable (pdu : Pdu) (shortroomid : ShortId)

def redactAllowed (roomId : RoomId) (eventId : EventId) :
    Appending Digest Unit := do
  let world ← get
  let allowed ← liftExcept
    (services.userCanRedact world.room.pdus eventId pdu.sender roomId)
  if allowed then services.redactPdu eventId pdu shortroomid

def applyRedaction (roomId : RoomId) : Appending Digest Unit := do
  match ← liftExcept (services.redactId pdu roomId) with
  | none => pure ()
  | some eventId => services.redactAllowed pdu shortroomid roomId eventId

def applyMember (roomId : RoomId) : Appending Digest Unit :=
  match pdu.stateKey with
  | none => pure ()
  | some userId => fun world =>
      match services.members.updateMembership services.ruma roomId userId pdu
          true world.memberTables with
      | .ok value members => .ok value (world.withMembers members)
      | .error error members =>
          .error (.member error) (world.withMembers members)

def applyMessage (pduId : PduId) : Appending Digest Unit :=
  match extractBody pdu.content with
  | none => throw (services.badContent pdu.content)
  | some none => pure ()
  | some (some body) =>
      modify (indexPdu (services.tokenize body) shortroomid pduId)

def applyKind (pduId : PduId) (roomId : RoomId) : Appending Digest Unit :=
  if pdu.kind = .roomRedaction then
    services.applyRedaction pdu shortroomid roomId
  else if pdu.kind = spaceChild then
    if pdu.stateKey.isSome then
      modify (fun world => { world with
        roomidSpacehierarchyCache :=
          world.roomidSpacehierarchyCache.erase roomId })
    else pure ()
  else if pdu.kind = .roomMember then services.applyMember pdu roomId
  else if pdu.kind = roomMessage then
    services.applyMessage pdu shortroomid pduId
  else pure ()

def relateTo (count : Nat) (eventId : EventId) : Appending Digest Unit := do
  match (← get).pduCount eventId with
  | none => pure ()
  | some target => modify (addRelation (.normal count) target)

def addToThread (root : EventId) (pdu : Pdu) : Appending Digest Unit := do
  let world ← get
  match world.room.eventidPduid root with
  | none => throw (.invalidParam "Invalid event_id in thread message")
  | some rootId =>
      match world.room.pdus root with
      | none => throw (.invalidParam "Thread root not found")
      | some rootPdu =>
          modify (updateParticipants rootId
            ((world.threadidUserids rootId).getD [rootPdu.sender] ++
              [pdu.sender]))

def relateDirect (count : Nat) : Appending Digest Unit :=
  match extractRelatesToEventId services.ruma pdu.content with
  | none => pure ()
  | some eventId => relateTo count eventId

def applyRelations (count : Nat) : Appending Digest Unit := do
  services.relateDirect pdu count
  match services.relation pdu.content with
  | some (.reply eventId) => relateTo count eventId
  | some (.thread root) => addToThread root pdu
  | some .other | none => pure ()

/-- The row of the queue is written before the message is sent on. -/
def sendPduAppservice (pduId : PduId) (appserviceId : String) :
    Appending Digest Unit := do
  modify (queuePdu appserviceId pduId)
  liftExcept ((services.dispatch appserviceId).mapError AppendError.sending)

def insertEvent (leaves : List EventId) (roomId : RoomId) :
    Appending Digest Nat := do
  modify (onRoom fun room => room.markAsReferenced roomId pdu.prevEvents)
  modify (onRoom fun room => room.setForwardExtremities roomId leaves)
  let count1 ← modifyGet nextCount
  modify (privateReadSet roomId pdu.sender count1)
  modify (resetNotificationCounts pdu.sender roomId)
  let count2 ← modifyGet nextCount
  modify (insertPdu roomId count2 pdu)
  return count2

def finishPdu (pduId : PduId) (roomId : RoomId) : Appending Digest Unit := do
  liftExcept (services.checkTarget pdu)
  modify (incrementNotificationCounts roomId (services.notified pdu).1
    (services.notified pdu).2)
  services.applyKind pdu shortroomid pduId roomId
  services.applyRelations pdu pduId.2
  (services.interested pdu roomId).forM (services.sendPduAppservice pduId)

def insertAndFinish (pdu : Pdu) (leaves : List EventId)
    (shortroomid : ShortId) (roomId : RoomId) : Appending Digest PduId := do
  let count ← insertEvent pdu leaves roomId
  services.finishPdu pdu shortroomid (roomId, count) roomId
  return (roomId, count)

def appendPdu (pdu : Pdu) (leaves : List EventId) (roomId : RoomId) :
    Appending Digest PduId := do
  match (← get).room.roomidShortroomid roomId with
  | none => throw (.database "Room does not exist")
  | some shortroomid =>
      liftExcept (services.checkPrevContent pdu)
      services.insertAndFinish pdu leaves shortroomid roomId

end AppendServices

end

variable {Digest : Type}

namespace TimelineWorld

variable {before middle after : TimelineWorld Digest}

/-- The events keep their places, although a redaction may rewrite them. -/
structure Placed (before after : TimelineWorld Digest) : Prop where
  eventidPduid : after.room.eventidPduid = before.room.eventidPduid
  backfilled : after.backfilled = before.backfilled
  pdus : ∀ eventId, (after.room.pdus eventId).isSome =
    (before.room.pdus eventId).isSome
  timeline : ∀ roomId, (after.room.timeline roomId).length =
    (before.room.timeline roomId).length

instance : IsPreorder (TimelineWorld Digest) Placed where
  refl _ := ⟨rfl, rfl, fun _ => rfl, fun _ => rfl⟩
  trans _ _ _ left right := ⟨right.eventidPduid.trans left.eventidPduid,
      right.backfilled.trans left.backfilled,
      fun eventId => (right.pdus eventId).trans (left.pdus eventId),
      fun roomId => (right.timeline roomId).trans (left.timeline roomId)⟩

/-- The indexes stand beside that, and relations are only added. -/
structure Steady (before after : TimelineWorld Digest) : Prop
    extends Placed before after where
  members : after.members = before.members
  tokenids : after.tokenids = before.tokenids
  tofromRelation : ∀ key, before.tofromRelation key = true →
    after.tofromRelation key = true

instance : IsPreorder (TimelineWorld Digest) Steady where
  refl world := ⟨refl_of Placed world, rfl, rfl, fun _ old => old⟩
  trans _ _ _ left right := ⟨trans_of Placed left.toPlaced right.toPlaced,
      right.members.trans left.members, right.tokenids.trans left.tokenids,
      fun key old => right.tofromRelation key (left.tofromRelation key old)⟩

theorem placed_of_tables (room : after.room = before.room)
    (backfilled : after.backfilled = before.backfilled) :
    Placed before after := by
  refine ⟨?_, backfilled, ?_, ?_⟩
  · rw [room]
  · intro eventId
    rw [room]
  · intro roomId
    rw [room]

theorem Placed.pduCount (placed : Placed before after) (eventId : EventId) :
    after.pduCount eventId = before.pduCount eventId := by
  unfold TimelineWorld.pduCount
  rw [placed.eventidPduid, placed.backfilled]

theorem steady_incrementNotificationCounts (roomId : RoomId)
    (notifies highlights : List UserId) (world : TimelineWorld Digest) :
    Steady world
      (world.incrementNotificationCounts roomId notifies highlights) :=
  ⟨placed_of_tables rfl rfl, rfl, rfl, fun _ old => old⟩

theorem steady_addRelation (first target : PduCount)
    (world : TimelineWorld Digest) :
    Steady world (world.addRelation first target) := by
  unfold addRelation
  split
  · refine ⟨placed_of_tables rfl rfl, rfl, rfl, ?_⟩
    intro key old
    exact MemberServices.update_true old
  · exact refl_of Steady world

theorem steady_updateParticipants (root : PduId) (userIds : List UserId)
    (world : TimelineWorld Digest) :
    Steady world (world.updateParticipants root userIds) :=
  ⟨placed_of_tables rfl rfl, rfl, rfl, fun _ old => old⟩

theorem steady_queuePdu (appserviceId : String) (pduId : PduId)
    (world : TimelineWorld Digest) :
    Steady world (world.queuePdu appserviceId pduId) :=
  ⟨placed_of_tables rfl rfl, rfl, rfl, fun _ old => old⟩

theorem placed_withMembers (members : MemberTables)
    (world : TimelineWorld Digest) : Placed world (world.withMembers members) :=
  ⟨rfl, rfl, fun _ => rfl, fun _ => rfl⟩

theorem placed_replacePdu {eventId : EventId} {pduId : PduId} {pdu : Pdu}
    {world : TimelineWorld Digest} (found : (world.room.pdus eventId).isSome) :
    Placed world (world.replacePdu eventId pduId pdu) := by
  refine ⟨rfl, rfl, ?_, ?_⟩
  · intro other
    change (update world.room.pdus eventId (some pdu) other).isSome = _
    rw [update_apply]
    split
    next here => rw [here, found, Option.isSome_some]
    · rfl
  · intro roomId
    change (update world.room.timeline pduId.1 _ roomId).length = _
    rw [update_apply]
    split
    next here => rw [here, List.length_map]
    · rfl

end TimelineWorld

end ArcanaServer.Timeline
