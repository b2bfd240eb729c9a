import ArcanaServer.Timeline.Append

namespace ArcanaServer.EventHandler

open Library ArcanaServer.Matrix Rooms
open StateRes (RoomVersion RoomVersionId authCheck)
open Timeline

variable {Digest : Type} [DecidableEq Digest]

abbrev StateIds := List (ShortStateKey × EventId)

/-- What a lookup of states and events may change: it draws short ids and it
stores events that it fetches. -/
structure Lookups (Digest : Type) where
  short : Short Digest
  pdus : EventId → Option Pdu

/-- What the upgrade asks of the rest of the server and of other servers. -/
structure Upgrading (Digest : Type) where
  ruma : Ruma
  roomVersionId : Json → Option RoomVersionId
  redactionTarget : Json → Option EventId
  calculateHash : List CompressedStateEvent → Digest
  stateAtIncoming : RoomWorld Digest → Pdu → RoomId → RoomVersionId →
    Except Refusal (Option StateIds) × Lookups Digest
  fetchState : RoomWorld Digest → ServerName → Pdu → RoomId → EventId →
    Except Refusal (Option StateIds) × Lookups Digest
  getAuthEvents : RoomWorld Digest → RoomId → Pdu → RoomVersion →
    Except Refusal (List (TypeStateKey × Pdu))
  userCanRedact : RoomWorld Digest → EventId → UserId → RoomId →
    Except Refusal Bool
  resolveState : RoomWorld Digest → RoomId → RoomVersionId → StateIds →
    Except Refusal CompressedState × Lookups Digest
  askPolicyServer : RoomWorld Digest → Pdu → RoomId → Except Refusal Bool
  finish : RoomWorld Digest → Pdu → Except Refusal Unit

def looking {α : Type}
    (lookup : RoomWorld Digest → Except Refusal α × Lookups Digest) :
    Acting Digest α := fun world =>
  let (result, lookups) := lookup world
  let world := { world with
    store := { world.store with short := lookups.short }
    pdus := lookups.pdus }
  match result with
  | .ok value => .ok value world
  | .error refusal => .error refusal world

def reading {α : Type} (read : RoomWorld Digest → Except Refusal α) :
    Acting Digest α := fun world =>
  match read world with
  | .ok value => .ok value world
  | .error refusal => .error refusal world

def compressStateEvents (store : Store Digest) :
    StateIds → CompressedState × Store Digest
  | [] => (∅, store)
  | (shortstatekey, eventId) :: rest =>
      let (shorteventid, short) := store.short.getOrCreateShorteventid eventId
      let (compressed, store) := compressStateEvents { store with short } rest
      (insert (compressStateEvent shortstatekey shorteventid) compressed, store)

def stateAfter (store : Store Digest) (stateAtIncoming : StateIds)
    (kind : EventType) (stateKey : StateKey) (eventId : EventId) :
    StateIds × Store Digest :=
  let (shortstatekey, short) :=
    store.short.getOrCreateShortstatekey (kind, stateKey)
  ((shortstatekey, eventId) ::
      stateAtIncoming.filter (fun entry => entry.1 ≠ shortstatekey),
    { store with short })

namespace Upgrading

variable (upgrading : Upgrading Digest)

/-- `redacts_id`: from version 11 on the id is part of the content. -/
def redactsId (event : Pdu) (roomVersionId : RoomVersionId) :
    Option EventId :=
  if event.kind ≠ .roomRedaction then none
  else
    match roomVersionId with
    | .v11 | .v12 | .custom _ => upgrading.redactionTarget event.content
    | _ => event.redacts

def checkAgainst (roomVersion : RoomVersion) (incomingPdu : Pdu)
    (fetchState : EventType → StateKey → Option Pdu) (createEvent : Pdu) :
    Except Refusal Bool :=
  match authCheck upgrading.ruma roomVersion incomingPdu none fetchState
    createEvent with
  | .ok passed => .ok passed
  | .error (.error error) => .error (.authCheck (some error))
  | .error (.panic message) => .error (.panic message)

def stateFetch (world : RoomWorld Digest) (stateAtIncoming : StateIds)
    (kind : EventType) (stateKey : StateKey) : Option Pdu := do
  let shortstatekey ← world.store.short.statekeyShortstatekey (kind, stateKey)
  let eventId ← stateAtIncoming.lookup shortstatekey
  world.pdus eventId

def orFetched (known : Option StateIds) (incomingPdu : Pdu)
    (createEvent : Pdu) (origin : ServerName) (roomId : RoomId) :
    Acting Digest (Option StateIds) :=
  match known with
  | some state => pure (some state)
  | none => looking (fun world => upgrading.fetchState world origin
      createEvent roomId incomingPdu.eventId)

section

variable (incomingPdu : Pdu)

variable (createEvent : Pdu) (origin : ServerName) (roomId : RoomId)

variable (roomVersionId : RoomVersionId)

def stateAtEvent : Acting Digest StateIds := do
  let known ← looking (fun world =>
    upgrading.stateAtIncoming world incomingPdu roomId roomVersionId)
  let found ← upgrading.orFetched known incomingPdu createEvent origin roomId
  match found with
  | some state => return state
  | none => throw (.panic "we always set this to some above")

def softFailEarly (roomVersion : RoomVersion) : Acting Digest Bool := do
  let authEvents ← reading (fun world =>
    upgrading.getAuthEvents world roomId incomingPdu roomVersion)
  let passed ← liftExcept (upgrading.checkAgainst roomVersion incomingPdu
    (fun kind stateKey => authEvents.lookup (kind, stateKey)) createEvent)
  match passed, upgrading.redactsId incomingPdu roomVersionId with
  | false, _ => return true
  | true, none => return false
  | true, some redactId =>
      let allowed ← reading (fun world =>
        upgrading.userCanRedact world redactId incomingPdu.sender roomId)
      return !allowed

def extremities (world : RoomWorld Digest) (incomingPdu : Pdu)
    (roomId : RoomId) : List EventId :=
  (world.getForwardExtremities roomId).filter (fun eventId =>
      eventId ∉ incomingPdu.prevEvents ∧
        !world.referencedevents roomId eventId) ++
    [incomingPdu.eventId]

def forceResolvedState (stateKey : StateKey) (roomId : RoomId)
    (roomVersionId : RoomVersionId) (stateAtIncoming : StateIds) :
    Acting Digest Unit := do
  let after ← modifyGet (fun world =>
    let (after, store) := stateAfter world.store stateAtIncoming
      incomingPdu.kind stateKey incomingPdu.eventId
    (after, { world with store }))
  let newRoomState ← looking (fun world =>
    upgrading.resolveState world roomId roomVersionId after)
  let saved ← onStore (fun store =>
    store.saveState upgrading.calculateHash roomId newRoomState)
  modify (fun world =>
    { world with
      store := world.store.setRoomState roomId saved.shortstatehash })

def softFailLate (world : RoomWorld Digest) : Bool :=
  let spam :=
    match incomingPdu.stateKey, upgrading.askPolicyServer world incomingPdu
      roomId with
    | none, .ok false => true
    | _, _ => false
  let redactsSoftFailed :=
    match upgrading.redactsId incomingPdu roomVersionId with
    | some redactId => world.softfailedeventids redactId
    | none => false
  spam || redactsSoftFailed

structure Prepared where
  roomVersionId : RoomVersionId
  stateAtIncoming : StateIds
  softFail : Bool
  extremities : List EventId
  stateIdsCompressed : CompressedState

def prepare : Acting Digest Prepared := do
  match upgrading.roomVersionId createEvent.content with
  | none => throw .noRoomVersion
  | some roomVersionId =>
      let stateAtIncoming ← upgrading.stateAtEvent incomingPdu createEvent
        origin roomId roomVersionId
      match RoomVersion.new roomVersionId with
      | .error _ => throw (.panic "room version is supported")
      | .ok roomVersion =>
          let passed ← reading (fun world => upgrading.checkAgainst
            roomVersion incomingPdu (stateFetch world stateAtIncoming)
            createEvent)
          refuseIf (!passed) .failsWithState
          let softFail ← upgrading.softFailEarly incomingPdu createEvent
            roomId roomVersionId roomVersion
          let leaves := extremities (← get) incomingPdu roomId
          let stateIdsCompressed ← modifyGet (fun world =>
            let (compressed, store) :=
              compressStateEvents world.store stateAtIncoming
            (compressed, { world with store }))
          return {
            roomVersionId, stateAtIncoming, softFail, extremities := leaves,
            stateIdsCompressed }

def conclude (prepared : Prepared) (softFail : Bool) :
    Acting Digest (Option (RoomId × Nat)) := do
  if softFail then
    let _ ← appendIncomingPdu upgrading.calculateHash upgrading.finish
      incomingPdu prepared.extremities prepared.stateIdsCompressed true roomId
    modify (fun world => world.markEventSoftFailed incomingPdu.eventId)
    throw .softFailed
  else
    appendIncomingPdu upgrading.calculateHash upgrading.finish incomingPdu
      (prepared.extremities ++ [incomingPdu.eventId])
      prepared.stateIdsCompressed false roomId

def forceState (prepared : Prepared) : Acting Digest Unit :=
  match incomingPdu.stateKey with
  | some stateKey =>
      upgrading.forceResolvedState incomingPdu stateKey roomId
        prepared.roomVersionId prepared.stateAtIncoming
  | none => pure ()

def verdict (prepared : Prepared) (world : RoomWorld Digest) : Bool :=
  prepared.softFail ||
    upgrading.softFailLate incomingPdu roomId prepared.roomVersionId world

def upgradeOutlierToTimelinePdu : Acting Digest (Option (RoomId × Nat)) := do
  match (← get).eventidPduid incomingPdu.eventId with
  | some pduId => return some pduId
  | none =>
      refuseIf ((← get).softfailedeventids incomingPdu.eventId) .softFailed
      let prepared ← upgrading.prepare incomingPdu createEvent origin roomId
      upgrading.forceState incomingPdu roomId prepared
      let softFail := upgrading.verdict incomingPdu roomId prepared (← get)
      upgrading.conclude incomingPdu roomId prepared softFail

end

end Upgrading

end ArcanaServer.EventHandler
