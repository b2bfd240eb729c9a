import ArcanaServer.Library.HashOrder
import ArcanaServer.Library.Stateful
import ArcanaServer.StateRes.EventAuth
import Mathlib.Data.String.Basic

namespace ArcanaServer.EventHandler

open Library ArcanaServer.Matrix StateRes

/-! Outliers: events that are fetched and stored without a place in the
timeline. -/

def removeField (name : String) (fields : CanonicalJsonObject) :
    CanonicalJsonObject :=
  fields.filter (fun field => field.1 ≠ name)

def insertField (name : String) (value : Json) :
    CanonicalJsonObject → CanonicalJsonObject
  | [] => [(name, value)]
  | (other, old) :: rest =>
      if other = name then (name, value) :: rest
      else (other, old) :: insertField name value rest

inductive Verified where
  | all
  | signatures
  deriving DecidableEq, Repr

/-- What the outlier handling uses of the Matrix library, of the other servers
and of the clock.  The answers of other servers and of the clock may differ
from one question to the next, so they depend on the number of the question. -/
structure Surroundings where
  ruma : Ruma
  validServerName : String → Bool
  roomVersionId : Json → Option RoomVersionId
  serializedLength : CanonicalJsonObject → Option Nat
  referenceHash : CanonicalJsonObject → RoomVersionId → Option String
  redact : CanonicalJsonObject → RoomVersionId → Option CanonicalJsonObject
  verifyEvent : Nat → CanonicalJsonObject → RoomVersionId → Option Verified
  getEvent : Nat → ServerName → EventId → Option Json
  continueBackoff : Nat → Nat → Bool

/-- An event as it was written to the table of outliers, with the room version
it was handled under. -/
structure StoredOutlier where
  version : RoomVersionId
  eventId : EventId
  pdu : CanonicalJsonObject

/-- The tables of events, the failures of each event so far, the number of
questions asked so far and the outliers written so far. -/
structure World where
  timeline : EventId → Option CanonicalJsonObject
  outliers : EventId → Option CanonicalJsonObject
  tries : EventId → Option Nat
  asked : Nat
  stored : List StoredOutlier

inductive HandlerError where
  | tooLarge
  | redactionFailed
  | redactedAndKnown
  | signatureVerification (eventId : EventId)
  | badJson
  | noRoomVersion
  | wrongRoom (eventId : EventId) (roomId : Option RoomId)
  | missingAuthEvents (missing : List EventId)
  | repeatedAuthKey (kind : EventType) (stateKey : StateKey)
  | authCheckFailed (error : Option Error)
  | panic (message : String)
  | outOfRounds
  deriving Repr

/-- Whether a caller that handles errors sees this one: a panic ends the
caller as well, and so does running out of rounds. -/
def HandlerError.isReturned : HandlerError → Bool
  | .panic _ => false
  | .outOfRounds => false
  | _ => true

abbrev Handling := EStateM HandlerError World

def ask {α : Type} (answer : Nat → α) : Handling α := fun world =>
  .ok (answer world.asked) { world with asked := world.asked + 1 }

namespace Surroundings

variable (surroundings : Surroundings)

def genEventId (value : CanonicalJsonObject)
    (roomVersionId : RoomVersionId) : Option EventId := do
  let referenceHash ← surroundings.referenceHash value roomVersionId
  let eventId := "$" ++ referenceHash
  if surroundings.ruma.validEventId eventId then some eventId else none

def genEventIdCanonicalJson (pdu : Json) (roomVersionId : RoomVersionId) :
    Option (EventId × CanonicalJsonObject) := do
  let value ← pdu.asObject
  let eventId ← surroundings.genEventId value roomVersionId
  return (eventId, value)

def asUInt (value : Json) : Option Nat :=
  match value.asInt with
  | some (.ofNat number) => some number
  | _ => none

/-- A field that may be missing or null, and has to decode otherwise. -/
def optional {α : Type} (decode : Json → Option α)
    (fields : CanonicalJsonObject) (name : String) : Option (Option α) :=
  match rawField fields name with
  | none => some none
  | some value => (decode value).map some

def required {α : Type} (decode : Json → Option α)
    (fields : CanonicalJsonObject) (name : String) : Option α :=
  (fields.lookup name).bind decode

def decodeEventId (value : Json) : Option EventId :=
  value.asStr.filter surroundings.ruma.validEventId

def decodeEventIds (value : Json) : Option (List EventId) := do
  let elements ← value.asArray
  elements.mapM surroundings.decodeEventId

def decodeHashes (value : Json) : Option String := do
  let fields ← value.asObject
  required Json.asStr fields "sha256"

/-- `from_value::<PduEvent>`.  The fields that the events of the model leave out
are decoded and dropped. -/
def decodePdu (fields : CanonicalJsonObject) : Option Pdu := do
  let eventId ← required surroundings.decodeEventId fields "event_id"
  let roomId ← optional
    (fun value => value.asStr.filter surroundings.ruma.validRoomId) fields
    "room_id"
  let sender ← required surroundings.ruma.decodeUserId fields "sender"
  let _origin ← optional
    (fun value => value.asStr.filter surroundings.validServerName) fields
    "origin"
  let originServerTs ← required asUInt fields "origin_server_ts"
  let kind ← required Json.asStr fields "type"
  let content ← required some fields "content"
  let stateKey ← optional Json.asStr fields "state_key"
  let prevEvents ← required surroundings.decodeEventIds fields "prev_events"
  let _depth ← required asUInt fields "depth"
  let authEvents ← required surroundings.decodeEventIds fields "auth_events"
  let redacts ← optional surroundings.decodeEventId fields "redacts"
  let _hashes ← required decodeHashes fields "hashes"
  return {
    eventId, roomId, sender, originServerTs, kind := .ofString kind, content,
    stateKey, prevEvents, authEvents, redacts }

def getPdu (world : World) (eventId : EventId) : Option Pdu :=
  (world.timeline eventId).bind surroundings.decodePdu <|>
    (world.outliers eventId).bind surroundings.decodePdu

end Surroundings

def World.pduExists (world : World) (eventId : EventId) : Bool :=
  (world.timeline eventId).isSome || (world.outliers eventId).isSome

def addPduOutlier (version : RoomVersionId) (eventId : EventId)
    (pdu : CanonicalJsonObject) : Handling Unit :=
  modify (fun world =>
    { world with
      outliers := Function.update world.outliers eventId (some pdu)
      stored := world.stored ++ [{ version, eventId, pdu }] })

def backOff (eventId : EventId) : Handling Unit :=
  modify (fun world =>
    { world with
      tries := Function.update world.tries eventId
        (match world.tries eventId with
        | none => some 1
        | some tries => some (min (tries + 1) (2 ^ 32 - 1))) })

def shortField (fields : CanonicalJsonObject) (name : String) : Bool :=
  match fields.lookup name with
  | some (.str value) => value.utf8ByteSize ≤ 255
  | _ => true

def checkRoomId (roomId : RoomId) (pdu : Pdu) : Except HandlerError Unit :=
  match pdu.roomId with
  | none => .ok ()
  | some claimed =>
      if claimed ≠ roomId then .error (.wrongRoom pdu.eventId pdu.roomId)
      else .ok ()

namespace Surroundings

variable (surroundings : Surroundings)

def pduFits (fields : CanonicalJsonObject) : Bool :=
  ["room_id", "event_id", "sender", "type", "state_key"].all
      (shortField fields) &&
    match surroundings.serializedLength fields with
    | some length => length ≤ 65535
    | none => false

def backingOff (eventId : EventId) : Handling Bool := do
  match (← get).tries eventId with
  | none => return false
  | some tries => ask (fun asked => surroundings.continueBackoff asked tries)

/-- One event from the other server.  When the server answers with another event
than the one that was asked for, this is only logged. -/
def fetchEvent (origin : ServerName) (createEvent : Pdu)
    (nextId : EventId) : Handling (Option CanonicalJsonObject) := do
  match ← ask (fun asked => surroundings.getEvent asked origin nextId) with
  | none =>
      backOff nextId
      return none
  | some pdu =>
      let parsed := (surroundings.roomVersionId createEvent.content).bind
        (surroundings.genEventIdCanonicalJson pdu)
      match parsed with
      | none =>
          backOff nextId
          return none
      | some (_, value) => return some value

def authEventIds (value : CanonicalJsonObject) : List EventId :=
  match (value.lookup "auth_events").bind Json.asArray with
  | none => []
  | some authEvents => authEvents.filterMap surroundings.decodeEventId

def fetchUnknown (origin : ServerName) (createEvent : Pdu)
    (fetched : List EventId) (nextId : EventId) :
    Handling (Option CanonicalJsonObject) := do
  if ← surroundings.backingOff nextId then return none
  else if nextId ∈ fetched then return none
  else if (← get).pduExists nextId then return none
  else surroundings.fetchEvent origin createEvent nextId

def fetchAuthChain (origin : ServerName) (createEvent : Pdu) :
    Nat → List EventId → List (EventId × CanonicalJsonObject) →
      Handling (List (EventId × CanonicalJsonObject))
  | 0, _, _ => throw .outOfRounds
  | _ + 1, [], eventsInReverseOrder => return eventsInReverseOrder
  | rounds + 1, nextId :: todo, eventsInReverseOrder => do
      let fetched ← surroundings.fetchUnknown origin createEvent
        (eventsInReverseOrder.map Prod.fst) nextId
      match fetched with
      | none =>
          fetchAuthChain origin createEvent rounds todo eventsInReverseOrder
      | some value =>
          fetchAuthChain origin createEvent rounds
            (todo ++ surroundings.authEventIds value)
            (eventsInReverseOrder ++ [(nextId, value)])

structure Gathered where
  id : EventId
  localPdu : Option Pdu
  eventsInReverseOrder : List (EventId × CanonicalJsonObject)

def gather (origin : ServerName) (createEvent : Pdu) (rounds : Nat)
    (id : EventId) : Handling Gathered := do
  match surroundings.getPdu (← get) id with
  | some localPdu => return ⟨id, some localPdu, []⟩
  | none =>
      let events ← surroundings.fetchAuthChain origin createEvent rounds [id] []
      return ⟨id, none, events⟩

abbrev Handled := Pdu × Option CanonicalJsonObject

def handleFetched (handle : EventId → CanonicalJsonObject →
      Handling (Pdu × CanonicalJsonObject))
    (id : EventId) (pdus : List Handled)
    (event : EventId × CanonicalJsonObject) : Handling (List Handled) := do
  if ← surroundings.backingOff event.1 then return pdus
  else
    tryCatch (do
        let (pdu, json) ← handle event.1 event.2
        return if event.1 = id then pdus ++ [(pdu, some json)] else pdus)
      (fun error => do
        if error.isReturned then
          backOff event.1
          return pdus
        else throw error)

def handleGathered (handle : EventId → CanonicalJsonObject →
      Handling (Pdu × CanonicalJsonObject))
    (pdus : List Handled) (gathered : Gathered) :
    Handling (List Handled) :=
  let pdus :=
    match gathered.localPdu with
    | some localPdu => pdus ++ [(localPdu, none)]
    | none => pdus
  gathered.eventsInReverseOrder.reverse.foldlM
    (surroundings.handleFetched handle gathered.id) pdus

def fetchAndHandleOutliers (origin : ServerName) (createEvent : Pdu)
    (rounds : Nat)
    (handle : EventId → CanonicalJsonObject →
      Handling (Pdu × CanonicalJsonObject))
    (events : List EventId) : Handling (List Handled) := do
  let eventsWithAuthEvents ←
    events.mapM (surroundings.gather origin createEvent rounds)
  eventsWithAuthEvents.foldlM (surroundings.handleGathered handle) []

/-- The event without its unsigned part, if its signatures hold; without its
content, if only the content hash does not match. -/
def verifiedPdu (eventId : EventId) (roomVersionId : RoomVersionId)
    (value : CanonicalJsonObject) : Handling CanonicalJsonObject := do
  let verified ←
    ask (fun asked => surroundings.verifyEvent asked value roomVersionId)
  match verified with
  | some .all => return value
  | some .signatures =>
      match surroundings.redact value roomVersionId with
      | none => throw .redactionFailed
      | some redacted =>
          refuseIf ((← get).pduExists eventId) .redactedAndKnown
          return redacted
  | none => throw (.signatureVerification eventId)

abbrev AuthEvents := List (EventId × Pdu)

def localAuthEvents (roomId : RoomId) :
    List EventId → AuthEvents → Handling AuthEvents
  | [], authEvents => return authEvents
  | authId :: rest, authEvents => do
      match surroundings.getPdu (← get) authId with
      | none => localAuthEvents roomId rest authEvents
      | some authEvent =>
          liftExcept (checkRoomId roomId authEvent)
          localAuthEvents roomId rest (authEvents ++ [(authId, authEvent)])

def missingAuthEvents (pduEvent : Pdu) (authEventsKnown : Bool)
    (localEvents : AuthEvents) : List EventId :=
  if authEventsKnown then
    pduEvent.authEvents.filter (fun id => id ∉ localEvents.map Prod.fst)
  else pduEvent.authEvents

def fetchMissing (fetch : List EventId → Handling (List Handled))
    (authEventsKnown : Bool) (missing : List EventId) :
    Handling (List Handled) :=
  if missing ≠ [] ∨ !authEventsKnown then fetch missing else pure []

def authEventsByKey (roomId : RoomId) (authEvents : AuthEvents) :
    List EventId → List (TypeStateKey × Pdu) →
      Except HandlerError (List (TypeStateKey × Pdu))
  | [], byKey => .ok byKey
  | authId :: rest, byKey =>
      match authEvents.reverse.lookup authId with
      | none => .error (.panic "we just checked that we have all auth events")
      | some authEvent => do
          checkRoomId roomId authEvent
          match authEvent.stateKey with
          | none => .error (.panic "all auth events have state keys")
          | some stateKey =>
              if (authEvent.kind, stateKey) ∈ byKey.map Prod.fst then
                .error (.repeatedAuthKey authEvent.kind stateKey)
              else
                authEventsByKey roomId authEvents rest
                  (byKey ++ [((authEvent.kind, stateKey), authEvent)])

def checkAuth (roomVersionId : RoomVersionId) (pduEvent : Pdu)
    (byKey : List (TypeStateKey × Pdu)) (createEvent : Pdu) :
    Except HandlerError Unit :=
  match RoomVersion.new roomVersionId with
  | .error _ => .error (.panic "room version is supported")
  | .ok roomVersion =>
      let fetchState := fun kind stateKey => byKey.lookup (kind, stateKey)
      match authCheck surroundings.ruma roomVersion pduEvent none fetchState
        createEvent with
      | .ok true => .ok ()
      | .ok false => .error (.authCheckFailed none)
      | .error (.error error) => .error (.authCheckFailed (some error))
      | .error (.panic message) => .error (.panic message)

def authorize (createEvent : Pdu) (roomId : RoomId)
    (roomVersionId : RoomVersionId) (incomingPdu : CanonicalJsonObject)
    (pduEvent : Pdu) (authEvents : AuthEvents) :
    Handling (Pdu × CanonicalJsonObject) := do
  let stillMissing := pduEvent.authEvents.filter
    (fun id => id ∉ authEvents.map Prod.fst)
  refuseIf (stillMissing ≠ []) (.missingAuthEvents stillMissing)
  let byKey ← liftExcept
    (authEventsByKey roomId authEvents pduEvent.authEvents [])
  liftExcept (surroundings.checkAuth roomVersionId pduEvent byKey createEvent)
  addPduOutlier roomVersionId pduEvent.eventId incomingPdu
  return (pduEvent, incomingPdu)

/-- `handle_outlier_pdu` with the function that fetches missing events.  That the
create event is among the auth events is not checked: the test of the source
accepts every answer of the lookup. -/
def handleOutlierWith (fetch : List EventId → Handling (List Handled))
    (createEvent : Pdu) (roomId : RoomId) (eventId : EventId)
    (value : CanonicalJsonObject) (authEventsKnown : Bool) :
    Handling (Pdu × CanonicalJsonObject) := do
  refuseIf (!surroundings.pduFits value) .tooLarge
  let value := removeField "unsigned" value
  match surroundings.roomVersionId createEvent.content with
  | none => throw .noRoomVersion
  | some roomVersionId =>
      let verified ← surroundings.verifiedPdu eventId roomVersionId value
      let incomingPdu := insertField "event_id" (.str eventId) verified
      match surroundings.decodePdu incomingPdu with
      | none => throw .badJson
      | some pduEvent =>
          liftExcept (checkRoomId roomId pduEvent)
          let localEvents ←
            surroundings.localAuthEvents roomId pduEvent.authEvents []
          let fetched ← fetchMissing fetch authEventsKnown
            (missingAuthEvents pduEvent authEventsKnown localEvents)
          let authEvents := localEvents ++
            fetched.map (fun handled => (handled.1.eventId, handled.1))
          surroundings.authorize createEvent roomId roomVersionId incomingPdu
            pduEvent authEvents

/-- The auth events of a fetched event are fetched in the same way; the rounds
bound how deep this goes. -/
def handleOutlierPdu (origin : ServerName) (createEvent : Pdu)
    (roomId : RoomId) :
    Nat → EventId → CanonicalJsonObject → Bool →
      Handling (Pdu × CanonicalJsonObject)
  | 0, _, _, _ => throw .outOfRounds
  | rounds + 1, eventId, value, authEventsKnown =>
      surroundings.handleOutlierWith
        (surroundings.fetchAndHandleOutliers origin createEvent rounds
          (fun nextId value =>
            handleOutlierPdu origin createEvent roomId rounds nextId value
              true))
        createEvent roomId eventId value authEventsKnown

end Surroundings

inductive PrevError where
  | shuttingDown
  | handler (error : HandlerError)
  | sorting (failure : Failure)

abbrev Walking := EStateM PrevError World

abbrev EventInfo := Pdu × CanonicalJsonObject

abbrev Answer := Option (Pdu × Option CanonicalJsonObject)

def u16Max : Nat := 2 ^ 16 - 1

/-- What the call is given besides the events to start from. -/
structure PrevBounds where
  maxFetchPrevEvents : Nat
  firstTsInRoom : Nat

/-- The variables of the loop. -/
structure PrevWalk where
  eventidInfo : EventId → Option EventInfo
  graph : Graph EventId
  todoOutlierStack : List EventId
  amount : Nat

namespace PrevWalk

def start (initialSet : List EventId) : PrevWalk where
  eventidInfo := fun _ => none
  graph := ∅
  todoOutlierStack := initialSet
  amount := 0

def prune (walk : PrevWalk) (prevEventId : EventId) : PrevWalk :=
  { walk with graph := walk.graph.insert prevEventId [] }

def extend (walk : PrevWalk) (prevEventId : EventId) (pdu : Pdu) : PrevWalk :=
  { walk with
    amount := min (walk.amount + 1) u16Max
    todoOutlierStack := walk.todoOutlierStack ++
      pdu.prevEvents.filter (· ∉ walk.graph)
    graph := walk.graph.insert prevEventId pdu.prevEvents.dedup }

def visit (bounds : PrevBounds) (walk : PrevWalk) (prevEventId : EventId) :
    Answer → PrevWalk
  | some (pdu, jsonOpt) =>
      if walk.amount > bounds.maxFetchPrevEvents then walk.prune prevEventId
      else
        match jsonOpt with
        | some json =>
            let walk :=
              if pdu.originServerTs > bounds.firstTsInRoom then
                walk.extend prevEventId pdu
              else walk.prune prevEventId
            { walk with
              eventidInfo := Function.update walk.eventidInfo prevEventId
                (some (pdu, json)) }
        | none => walk.prune prevEventId
  | none => walk.prune prevEventId

end PrevWalk

def walkPrev (lookFor : EventId → Walking Answer) (bounds : PrevBounds) :
    Nat → PrevWalk → Walking PrevWalk
  | 0, _ => throw (.handler .outOfRounds)
  | rounds + 1, walk =>
      match walk.todoOutlierStack with
      | [] => return walk
      | prevEventId :: todoOutlierStack => do
          let answer ← lookFor prevEventId
          walkPrev lookFor bounds rounds
            ({ walk with todoOutlierStack }.visit bounds prevEventId answer)

def stampIn (eventidInfo : EventId → Option EventInfo) (eventId : EventId) :
    Nat :=
  match eventidInfo eventId with
  | some (pdu, _) => pdu.originServerTs
  | none => 0

def eventFetch (eventidInfo : EventId → Option EventInfo) : KeyFn EventId :=
  fun eventId => .ok (0, stampIn eventidInfo eventId)

def sortWalk (order : HashOrder) (walk : PrevWalk) : Outcome (List EventId) :=
  lexicographicalTopologicalSort (order.map walk.graph)
    (eventFetch walk.eventidInfo) order.visit

namespace Surroundings

variable (surroundings : Surroundings)

def lookForPrev (running : Nat → Bool) (origin : ServerName)
    (createEvent : Pdu) (roomId : RoomId) (rounds : Nat)
    (prevEventId : EventId) : Walking Answer := do
  refuseIf (!(← ask running |>.adaptExcept .handler)) .shuttingDown
  let handled ← (surroundings.fetchAndHandleOutliers origin createEvent rounds
    (fun nextId value => surroundings.handleOutlierPdu origin createEvent
      roomId rounds nextId value true) [prevEventId]).adaptExcept .handler
  match handled.getLast? with
  | none => return none
  | some (pdu, jsonOpt) =>
      liftExcept ((checkRoomId roomId pdu).mapError PrevError.handler)
      let outlier := (← get).outliers prevEventId
      return some (pdu, jsonOpt <|> outlier)

def fetchPrev (running : Nat → Bool) (order : HashOrder)
    (bounds : PrevBounds) (origin : ServerName) (createEvent : Pdu)
    (roomId : RoomId) (rounds : Nat) (initialSet : List EventId) :
    Walking (List EventId × (EventId → Option EventInfo)) := do
  let walk ← walkPrev
    (surroundings.lookForPrev running origin createEvent roomId rounds)
    bounds rounds (PrevWalk.start initialSet)
  let sorted ← liftExcept ((sortWalk order walk).mapError PrevError.sorting)
  return (sorted, walk.eventidInfo)

end Surroundings

end ArcanaServer.EventHandler
