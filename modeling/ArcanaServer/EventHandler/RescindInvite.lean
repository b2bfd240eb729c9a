import ArcanaServer.EventHandler.OutlierIds
import ArcanaServer.Library.Settles
import ArcanaServer.Rooms.Standing

namespace ArcanaServer.EventHandler

open Library ArcanaServer.Matrix Rooms

/-! Incoming events of rooms that this server is not in: all but those that seem
to take back an invite are dropped. -/

inductive IncomingError where
  | request (kind message : String)
  | text (message : String)
  | json
  | panic (message : String)
  deriving DecidableEq, Repr

inductive Incoming where
  | known (pduId : Nat)
  | rescinded
  | participating (sender : UserId)
  deriving DecidableEq, Repr

structure IncomingServices where
  surroundings : Surroundings
  cache : CacheServices
  ownServerName : ServerName
  pduId : EventId → Option Nat
  aclCheck : ServerName → RoomId → Except IncomingError Unit

namespace IncomingServices

variable (services : IncomingServices)

def getField {α : Type} (decode : Json → Option α) (name : String)
    (event : Json) : Except IncomingError (Option α) :=
  match event with
  | .obj fields =>
      match fields.lookup name with
      | none => .ok none
      | some value =>
          match decode value with
          | none => .error .json
          | some field => .ok (some field)
  | _ => .error .json

def matchesInvite (target sender : UserId) (event : Json) :
    Except IncomingError Bool := do
  if (← getField Json.asStr "type" event) = some "m.room.member" then
    return true
  else if (← getField services.surroundings.ruma.decodeUserId "state_key"
      event) = some target then
    return true
  else if (← getField services.surroundings.ruma.decodeUserId "sender"
      event) = some sender then
    return true
  else
    return (← getField services.surroundings.ruma.roomMember "content"
      event) = some .invite

def anyMatches (target sender : UserId) :
    StrippedState → Except IncomingError Bool
  | [] => .ok false
  | event :: rest => do
      if ← services.matchesInvite target sender event then return true
      else anyMatches target sender rest

def inviteTakenBack (cache : StateCache) (pduEvent : Pdu)
    (targetUserId sender : UserId) (roomId : RoomId) :
    Except IncomingError (Option Pdu) :=
  match services.surroundings.ruma.roomMember pduEvent.content with
  | none => .error .json
  | some membership =>
      if membership ≠ .leave then .ok none
      else
        match cache.userroomidInvitestate.lookup (targetUserId, roomId) with
        | none => .ok none
        | some pendingInviteState => do
            if ← services.anyMatches targetUserId sender pendingInviteState then
              return some pduEvent
            else return none

def shouldRescindInvite (cache : StateCache) (content : CanonicalJsonObject)
    (sender : UserId) (roomId : RoomId) :
    Except IncomingError (Option Pdu) :=
  let content := insertField "event_id" (.str "$rescind") content
  match services.surroundings.decodePdu content with
  | none => .error (.text "invalid PDU")
  | some pduEvent =>
      if pduEvent.roomId ≠ some roomId ∧ pduEvent.sender ≠ sender ∧
          pduEvent.kind ≠ .roomMember ∧
          (pduEvent.stateKey = none ∨ pduEvent.stateKey = some sender) then
        .ok none
      else
        match pduEvent.stateKey with
        | none =>
            .error (.panic "called Option::unwrap() on a None value")
        | some targetUserId =>
            if services.surroundings.ruma.validUserId targetUserId = false then
              .error (.text
                (services.surroundings.ruma.userIdError targetUserId))
            else
              services.inviteTakenBack cache pduEvent targetUserId sender roomId

/-- The part of `handle_incoming_pdu` that comes before the room of the event
is looked at. -/
def handleIncomingPdu (origin : ServerName) (roomId : RoomId)
    (eventId : EventId) (value : CanonicalJsonObject) (cache : StateCache) :
    Except IncomingError Incoming × StateCache :=
  match services.pduId eventId with
  | some pduId => (.ok (.known pduId), cache)
  | none =>
      if services.surroundings.pduFits value = false then
        (.error (.request "TooLarge" "PDU is too large"), cache)
      else
        match (value.lookup "sender").bind
            services.surroundings.ruma.decodeUserId with
        | none =>
            (.error (.request "InvalidParam"
              "PDU does not have a valid sender key"), cache)
        | some sender =>
            match checkAcls sender with
            | .error failure => (.error failure, cache)
            | .ok _ =>
                if services.cache.isDisabled roomId then
                  (.error (.request "Forbidden"
                    "Federation of this room is disabled by this server."),
                    cache)
                else if (services.ownServerName, roomId) ∈
                    cache.serverroomids then
                  (.ok (.participating sender), cache)
                else handleForeign sender
where
  checkAcls (sender : UserId) : Except IncomingError Unit := do
    services.aclCheck origin roomId
    if services.cache.serverName sender ≠ origin then
      services.aclCheck (services.cache.serverName sender) roomId
  handleForeign (sender : UserId) : Except IncomingError Incoming × StateCache :=
    let dropped : Except IncomingError Incoming :=
      .error (.request "NotFound"
        "This server is not participating in that room.")
    if (value.lookup "type").bind Json.asStr = some "m.room.member" then
      match services.shouldRescindInvite cache value sender roomId with
      | .error failure => (.error failure, cache)
      | .ok none => (dropped, cache)
      | .ok (some pdu) =>
          (.ok .rescinded,
            cache.markAsLeft services.cache sender roomId (some pdu))
    else (dropped, cache)

/-- The event is a leave of somebody who has an invite, and one of the events
that came with the invite matches in one way. -/
structure SeemsRescinded (cache : StateCache) (content : CanonicalJsonObject)
    (sender : UserId) (roomId : RoomId) (pdu : Pdu) (target : UserId)
    (pending : StrippedState) : Prop where
  decoded : services.surroundings.decodePdu
    (insertField "event_id" (.str "$rescind") content) = some pdu
  kept : ¬(pdu.roomId ≠ some roomId ∧ pdu.sender ≠ sender ∧
    pdu.kind ≠ .roomMember ∧
    (pdu.stateKey = none ∨ pdu.stateKey = some sender))
  named : pdu.stateKey = some target
  valid : services.surroundings.ruma.validUserId target = true
  leaves : services.surroundings.ruma.roomMember pdu.content = some .leave
  invited : cache.userroomidInvitestate.lookup (target, roomId) = some pending
  fits : services.anyMatches target sender pending = .ok true

structure Rescinds (origin : ServerName) (roomId : RoomId) (eventId : EventId)
    (value : CanonicalJsonObject) (cache : StateCache) (sender : UserId) :
    Prop where
  unknown : services.pduId eventId = none
  fits : services.surroundings.pduFits value = true
  sent : (value.lookup "sender").bind
    services.surroundings.ruma.decodeUserId = some sender
  allowed : handleIncomingPdu.checkAcls services origin roomId sender = .ok ()
  enabled : services.cache.isDisabled roomId = false
  foreign : (services.ownServerName, roomId) ∉ cache.serverroomids
  member : (value.lookup "type").bind Json.asStr = some "m.room.member"
  seems : ∃ pdu target pending,
    services.SeemsRescinded cache value sender roomId pdu target pending

variable {services} {cache : StateCache} {content value : CanonicalJsonObject}
  {sender : UserId} {origin : ServerName} {roomId : RoomId}
  {eventId : EventId}

theorem inviteTakenBack_some {event pdu : Pdu} {target : UserId}
    (rescinds : services.inviteTakenBack cache event target sender roomId =
      .ok (some pdu)) :
    services.surroundings.ruma.roomMember event.content = some .leave ∧
      ∃ pending,
        cache.userroomidInvitestate.lookup (target, roomId) = some pending ∧
          services.anyMatches target sender pending = .ok true ∧
            event = pdu := by
  unfold inviteTakenBack at rescinds
  cases read : services.surroundings.ruma.roomMember event.content with
  | none =>
      simp only [read] at rescinds
      cases rescinds
  | some membership =>
      simp only [read] at rescinds
      split at rescinds
      · cases rescinds
      next leaves =>
      rw [not_not] at leaves
      cases invited : cache.userroomidInvitestate.lookup
          (target, roomId) with
      | none =>
          simp only [invited] at rescinds
          cases rescinds
      | some pending =>
          simp only [invited] at rescinds
          obtain ⟨matched, fits, final⟩ := bind_eq_ok rescinds
          cases matched with
          | false => cases final
          | true =>
              cases final
              exact ⟨congrArg some leaves, pending, rfl, fits, rfl⟩

theorem shouldRescindInvite_some {pdu : Pdu} :
    services.shouldRescindInvite cache content sender roomId = .ok (some pdu) ↔
      ∃ target pending, services.SeemsRescinded cache content sender roomId
        pdu target pending := by
  constructor
  · intro rescinds
    unfold shouldRescindInvite at rescinds
    cases decoded : services.surroundings.decodePdu
        (insertField "event_id" (.str "$rescind") content) with
    | none =>
        simp only [decoded] at rescinds
        cases rescinds
    | some event =>
        simp only [decoded] at rescinds
        split at rescinds
        · cases rescinds
        next kept =>
        cases named : event.stateKey with
        | none =>
            simp only [named] at rescinds
            cases rescinds
        | some target =>
            simp only [named] at rescinds
            split at rescinds
            · cases rescinds
            next valid =>
            rw [Bool.not_eq_false] at valid
            obtain ⟨leaves, pending, invited, fits, same⟩ :=
              inviteTakenBack_some rescinds
            subst same
            exact ⟨target, pending, {
              decoded, kept, named, valid, leaves, invited, fits }⟩
  · intro ⟨target, pending, seems⟩
    have kept := seems.kept
    rw [seems.named] at kept
    unfold shouldRescindInvite inviteTakenBack
    simp only [seems.decoded, seems.named, if_neg kept, seems.valid,
      seems.leaves, seems.invited, seems.fits]
    rfl

/-- The path changes the table for the sender, and only if the event seems to
rescind an invite. -/
theorem handleIncomingPdu_rescinds
    (rescinds : services.Rescinds origin roomId eventId value cache sender) :
    ∃ pdu, (services.handleIncomingPdu origin roomId eventId value cache).2 =
      cache.markAsLeft services.cache sender roomId (some pdu) := by
  obtain ⟨pdu, seems⟩ := rescinds.seems
  refine ⟨pdu, ?_⟩
  have rescinded := shouldRescindInvite_some.mpr seems
  simp [handleIncomingPdu, rescinds.unknown, rescinds.fits, rescinds.sent,
    rescinds.allowed, rescinds.enabled, rescinds.foreign,
    handleIncomingPdu.handleForeign, rescinds.member, rescinded]

theorem handleForeign_leaves
    (keeps : (value.lookup "type").bind Json.asStr = some "m.room.member" →
      ¬∃ pdu target pending,
        services.SeemsRescinded cache value sender roomId pdu target pending) :
    (handleIncomingPdu.handleForeign services roomId value cache sender).2 =
      cache := by
  unfold handleIncomingPdu.handleForeign
  simp only
  split
  next member =>
    cases rescinded : services.shouldRescindInvite cache value sender
        roomId with
    | error failure => rfl
    | ok answer =>
        cases answer with
        | none => rfl
        | some pdu =>
            obtain seems := shouldRescindInvite_some.mp rescinded
            exact absurd ⟨pdu, seems⟩ (keeps member)
  · rfl

theorem handleIncomingPdu_leaves (keeps : ∀ sender,
      ¬services.Rescinds origin roomId eventId value cache sender) :
    (services.handleIncomingPdu origin roomId eventId value cache).2 =
      cache := by
  unfold handleIncomingPdu
  cases unknown : services.pduId eventId with
  | some pduId => rfl
  | none =>
      simp only
      split
      · rfl
      next fits =>
      rw [Bool.not_eq_false] at fits
      cases sent : (value.lookup "sender").bind
          services.surroundings.ruma.decodeUserId with
      | none => rfl
      | some sender =>
          simp only
          cases allowed : handleIncomingPdu.checkAcls services origin roomId
              sender with
          | error failure => rfl
          | ok passed =>
              simp only
              split
              · rfl
              next enabled =>
              split
              · rfl
              next foreign =>
              exact handleForeign_leaves fun member seems =>
                keeps sender {
                  unknown, fits, sent, allowed, foreign, member
                  enabled := by simpa using enabled
                  seems }

end IncomingServices

def Moved (before after : StateCache) (key : UserRoom) : Prop := ∃ membership,
    ¬(after.hasRow membership key ↔ before.hasRow membership key)

/-- The event takes back the invite that its sender has sent to this user of
this server. -/
structure Rescindable (services : IncomingServices) (roomId : RoomId)
    (value : CanonicalJsonObject) (cache : StateCache) (key : UserRoom) :
    Prop where
  room : key.2 = roomId
  isLocal : services.cache.userIsLocal key.1 = true
  named : value.lookup "state_key" = some (.str key.1)
  member : (value.lookup "type").bind Json.asStr = some "m.room.member"
  leaves : (value.lookup "content").bind
    services.surroundings.ruma.roomMember = some .leave
  invited : key ∈ cache.userroomidInvitestate
  inviter : cache.userroomidInvitesender.lookup key =
    (value.lookup "sender").bind services.surroundings.ruma.decodeUserId

/-- The sender is marked as having left, which changes something, although it
is not the sender's own invite. -/
structure Misdirected (services : IncomingServices) (origin : ServerName)
    (roomId : RoomId) (eventId : EventId) (value : CanonicalJsonObject)
    (cache : StateCache) (sender : UserId) : Prop where
  rescinds : services.Rescinds origin roomId eventId value cache sender
  moves : ¬cache.Stands (sender, roomId)
    (if services.cache.forgetsOnLeave (sender, roomId) then none
      else some .left)
  other : ¬Rescindable services roomId value cache (sender, roomId)

theorem moved_markAsLeft {services : CacheServices} {cache : StateCache}
    {userId : UserId} {roomId : RoomId} {leavePdu : Option Pdu}
    {key : UserRoom} :
    Moved cache (cache.markAsLeft services userId roomId leavePdu) key ↔
      key = (userId, roomId) ∧ ¬cache.Stands (userId, roomId)
        (if services.forgetsOnLeave (userId, roomId) then none
          else some .left) := by
  have moves : cache.Moves _ (userId, roomId) _ :=
    StateCache.moves_markAsLeft services userId roomId leavePdu
  unfold Moved
  constructor
  · intro ⟨membership, differs⟩
    rw [moves membership key] at differs
    split at differs
    next same =>
      refine ⟨same, fun stands => differs ?_⟩
      rw [same]
      exact (stands membership).symm
    · exact absurd Iff.rfl differs
  · intro ⟨same, unsettled⟩
    subst same
    unfold StateCache.Stands at unsettled
    rw [not_forall] at unsettled
    obtain ⟨membership, differs⟩ := unsettled
    refine ⟨membership, fun kept => differs ?_⟩
    rw [← kept, moves membership, if_pos rfl]

/-- Only the target of a rescinded invite moves, unless the sender of the event
does. -/
theorem handleIncomingPdu_rescinds_iff {services : IncomingServices}
    {origin : ServerName} {roomId : RoomId} {eventId : EventId}
    {value : CanonicalJsonObject} {cache : StateCache} : (∀ key, Moved cache
        (services.handleIncomingPdu origin roomId eventId value cache).2 key →
      Rescindable services roomId value cache key) ↔
      ∀ sender,
        ¬Misdirected services origin roomId eventId value cache sender := by
  constructor
  · intro touches sender misdirected
    obtain ⟨pdu, marked⟩ :=
      IncomingServices.handleIncomingPdu_rescinds misdirected.rescinds
    apply misdirected.other
    apply touches
    rw [marked]
    exact moved_markAsLeft.mpr ⟨rfl, misdirected.moves⟩
  · intro directed key moved
    by_cases rescinded : ∃ sender,
        services.Rescinds origin roomId eventId value cache sender
    · obtain ⟨sender, rescinds⟩ := rescinded
      obtain ⟨pdu, marked⟩ :=
        IncomingServices.handleIncomingPdu_rescinds rescinds
      rw [marked] at moved
      obtain ⟨rfl, moves⟩ := moved_markAsLeft.mp moved
      by_contra other
      exact directed sender ⟨rescinds, moves, other⟩
    · have kept := IncomingServices.handleIncomingPdu_leaves
        (not_exists.mp rescinded)
      rw [kept] at moved
      obtain ⟨membership, differs⟩ := moved
      exact absurd Iff.rfl differs

def inviteFields : CanonicalJsonObject :=
  [("content", .obj [("membership", .str "invite")]),
    ("sender", .str "@bob:there"),
    ("state_key", .str "@alice:here"),
    ("type", .str "m.room.member")]

def invitedCache : StateCache :=
  { StateCache.empty with
    counter := 1
    userroomidInvitestate := (∅ : EntryTable UserRoom StrippedState).insert
      ("@alice:here", "!room:there") [.obj inviteFields]
    roomuseridInvitecount := (∅ : EntryTable (RoomId × UserId) Nat).insert
      ("!room:there", "@alice:here") 1
    userroomidInvitesender := (∅ : EntryTable UserRoom UserId).insert
      ("@alice:here", "!room:there") "@bob:there" }

def rescindFields : CanonicalJsonObject :=
  [("auth_events", .arr []),
    ("content", .obj [("membership", .str "leave")]),
    ("depth", .int 7),
    ("hashes", .obj [("sha256", .str "")]),
    ("origin_server_ts", .int 0),
    ("prev_events", .arr []),
    ("room_id", .str "!room:there"),
    ("sender", .str "@bob:there"),
    ("state_key", .str "@alice:here"),
    ("type", .str "m.room.member")]

def hereServices : IncomingServices where
  surroundings := plainSurroundings (fun _ => none)
  cache := StateCache.plainServices
  ownServerName := "here"
  pduId := fun _ => none
  aclCheck := fun _ _ => .ok ()

theorem rescinded_marksSender :
    ¬∀ (services : IncomingServices) (origin : ServerName) (roomId : RoomId)
      (eventId : EventId) (value : CanonicalJsonObject) (cache : StateCache)
      (key : UserRoom),
      Moved cache
        (services.handleIncomingPdu origin roomId eventId value cache).2 key →
      Rescindable services roomId value cache key := by
  intro touches
  have moved : Moved invitedCache (hereServices.handleIncomingPdu "there"
      "!room:there" "$rescind" rescindFields invitedCache).2
        ("@bob:there", "!room:there") := by
    refine ⟨.left, ?_⟩
    unfold StateCache.hasRow
    decide +kernel
  have target := touches hereServices "there" "!room:there" "$rescind"
    rescindFields invitedCache ("@bob:there", "!room:there") moved
  exact absurd target.isLocal (by decide)

end ArcanaServer.EventHandler
