import ArcanaServer.StateRes.RoomVersion

namespace ArcanaServer.StateRes

open ArcanaServer.Matrix

/-! The authorization rules.  A rejected event is `false`, a content that
cannot be read is an error, and an `unwrap` or `expect` that fails is a
panic. -/

def expectSome {α : Type} (message : String) : Option α → Outcome α
  | some value => .ok value
  | none => .error (.panic message)

def unwrapNone : String := "called `Option::unwrap()` on a `None` value"

def unwrapErr : String := "called `Result::unwrap()` on an `Err` value"

/-- `Event::room_id_or_hash`. -/
def roomIdOrHash (ruma : Ruma) (event : Pdu) : Outcome RoomId :=
  if event.kind ≠ .roomCreate then
    expectSome "Event must have a room ID" event.roomId
  else
    match event.roomId with
    | some roomId => .ok roomId
    | none =>
        let constructedHash := replaceChar '$' '!' event.eventId
        if ruma.validRoomId constructedHash then .ok constructedHash
        else .error (.panic "event ID can be parsed")

structure GetMembership where
  membership : MembershipState

def GetMembership.decode (content : Json) : Option GetMembership := do
  let fields ← content.asObject
  let value ← fields.lookup "membership"
  let membership ← MembershipState.decode value
  return { membership }

structure RoomMemberContentFields where
  membership : Option Json
  thirdPartyInvite : Option Json
  joinAuthorisedViaUsersServer : Option Json

def RoomMemberContentFields.decode (content : Json) :
    Option RoomMemberContentFields := do
  let fields ← content.asObject
  return {
    membership := rawField fields "membership"
    thirdPartyInvite := rawField fields "third_party_invite"
    joinAuthorisedViaUsersServer :=
      rawField fields "join_authorised_via_users_server" }

structure RoomCreateContentFields where
  roomVersion : Option Json
  creator : Option Json
  additionalCreators : Option (List Json)
  federate : Bool

namespace RoomCreateContentFields

def decode (content : Json) : Option RoomCreateContentFields := do
  let fields ← content.asObject
  let additionalCreators ←
    match rawField fields "additional_creators" with
    | none => some none
    | some value => value.asArray.map some
  let federate ← decodeOr true Json.asBool fields "m.federate"
  return {
    roomVersion := rawField fields "room_version"
    creator := rawField fields "creator"
    additionalCreators
    federate }

def unsupportedVersion (ruma : Ruma) (content : RoomCreateContentFields) :
    Bool :=
  match content.roomVersion with
  | none => false
  | some version => (ruma.decodeRoomVersionId version).isNone

def validCreators (ruma : Ruma) (content : RoomCreateContentFields) :
    List UserId :=
  (content.additionalCreators.getD []).filterMap ruma.decodeUserId

end RoomCreateContentFields

def pushKey (authTypes : List TypeStateKey) (key : TypeStateKey) :
    List TypeStateKey :=
  if key ∈ authTypes then authTypes else authTypes ++ [key]

def pushDecoded {α : Type} (authTypes : List TypeStateKey)
    (decoded : Option α) (key : α → TypeStateKey) : List TypeStateKey :=
  match decoded with
  | none => authTypes
  | some value => pushKey authTypes (key value)

def memberAuthTypes (ruma : Ruma) (stateKey : StateKey)
    (content : RoomMemberContentFields) (authTypes : List TypeStateKey) :
    List TypeStateKey :=
  match content.membership.bind MembershipState.decode with
  | none => authTypes
  | some membership =>
      let authTypes :=
        if membership ∈ [.join, .invite, .knock] then
          pushDecoded (pushKey authTypes (.roomJoinRules, ""))
            (content.joinAuthorisedViaUsersServer.bind ruma.decodeUserId)
            (fun user => (.roomMember, user))
        else authTypes
      let authTypes := pushKey authTypes (.roomMember, stateKey)
      if membership = .invite then
        pushDecoded authTypes
          (content.thirdPartyInvite.bind ruma.thirdPartyInvite)
          (fun invite => (.roomThirdPartyInvite, invite.token))
      else authTypes

def baseAuthTypes (sender : UserId) (roomVersion : RoomVersion) :
    List TypeStateKey :=
  if roomVersion.roomIdsAsHashes then
    [(.roomPowerLevels, ""), (.roomMember, sender)]
  else [(.roomPowerLevels, ""), (.roomMember, sender), (.roomCreate, "")]

def authTypesForEvent (ruma : Ruma) (kind : EventType) (sender : UserId)
    (stateKey : Option StateKey) (content : Json)
    (roomVersion : RoomVersion) : Outcome (List TypeStateKey) :=
  if kind = .roomCreate then .ok []
  else
    match kind, stateKey with
    | .roomMember, some stateKey => do
        let content ← orSerde (RoomMemberContentFields.decode content)
        return memberAuthTypes ruma stateKey content
          (baseAuthTypes sender roomVersion)
    | _, _ => .ok (baseAuthTypes sender roomVersion)

def getSendLevel (ruma : Ruma) (kind : EventType)
    (stateKey : Option StateKey) (powerLevelsEvent : Option Pdu) : Int :=
  match powerLevelsEvent.bind (fun event => ruma.roomPowerLevels event.content)
    with
  | none => if stateKey.isSome then 50 else 0
  | some content =>
      match content.events.lookup kind with
      | some level => level
      | none =>
          if stateKey.isSome then content.stateDefault
          else content.eventsDefault

def canSendEvent (ruma : Ruma) (event : Pdu) (powerLevelsEvent : Option Pdu)
    (userLevel : Int) : Bool :=
  if userLevel < getSendLevel ruma event.kind event.stateKey powerLevelsEvent
  then false
  else
    match event.stateKey with
    | none => true
    | some key => key.toList.head? != some '@' || key == event.sender

def exceeds (level : Option Int) (userLevel : Int) : Bool :=
  match level with
  | none => false
  | some level => decide (level > userLevel)

def userChangeAllowed (sender : UserId) (userLevel : Int)
    (creators : List UserId) (old new : RoomPowerLevelsEventContent)
    (user : UserId) : Bool :=
  let oldLevel := old.users.lookup user
  let newLevel := new.users.lookup user
  if newLevel.isSome && creators.contains user then false
  else if oldLevel.isSome && newLevel.isSome && oldLevel == newLevel then true
  else if user != sender && oldLevel == some userLevel then false
  else !(exceeds oldLevel userLevel) && !(exceeds newLevel userLevel)

def eventChangeAllowed (userLevel : Int)
    (old new : RoomPowerLevelsEventContent) (kind : EventType) : Bool :=
  let oldLevel := old.events.lookup kind
  let newLevel := new.events.lookup kind
  if oldLevel.isSome && newLevel.isSome && oldLevel == newLevel then true
  else !(exceeds oldLevel userLevel) && !(exceeds newLevel userLevel)

def notificationsChangeAllowed (roomVersion : RoomVersion) (userLevel : Int)
    (old new : RoomPowerLevelsEventContent) : Bool :=
  if roomVersion.limitNotificationsPowerLevels then
    old.notificationsRoom == new.notificationsRoom ||
      (!(exceeds (some old.notificationsRoom) userLevel) &&
        !(exceeds (some new.notificationsRoom) userLevel))
  else true

def levelNames : List String :=
  ["users_default", "events_default", "state_default", "ban", "redact",
    "kick", "invite"]

def getDeserializeLevels (old new : Json) (name : String) :
    Option (Int × Int) := do
  let oldFields ← old.asObject
  let oldValue ← oldFields.lookup name
  let oldLevel ← oldValue.asInt
  let newFields ← new.asObject
  let newValue ← newFields.lookup name
  let newLevel ← newValue.asInt
  return (oldLevel, newLevel)

def levelChangeAllowed (userLevel : Int) (old new : Json) (name : String) :
    Bool :=
  match getDeserializeLevels old new name with
  | none => true
  | some (oldLevel, newLevel) =>
      !(exceeds (some oldLevel) userLevel) &&
        !(exceeds (some newLevel) userLevel)

variable (ruma : Ruma) (roomVersion : RoomVersion)

def checkPowerLevels (powerEvent : Pdu) (previousPowerEvent : Option Pdu)
    (userLevel : Int) (creators : List UserId) : Option Bool :=
  if powerEvent.stateKey ≠ some "" then none
  else do
    let userContent ← deserializePowerLevels ruma powerEvent.content roomVersion
    match previousPowerEvent with
    | none => some true
    | some currentState => do
        let currentContent ←
          deserializePowerLevels ruma currentState.content roomVersion
        let userLevelsToCheck :=
          (currentContent.users ++ userContent.users).map Prod.fst
        let eventLevelsToCheck :=
          (currentContent.events ++ userContent.events).map Prod.fst
        some (userLevelsToCheck.all (userChangeAllowed powerEvent.sender
              userLevel creators currentContent userContent) &&
            eventLevelsToCheck.all
              (eventChangeAllowed userLevel currentContent userContent) &&
            notificationsChangeAllowed roomVersion userLevel currentContent
              userContent &&
            levelNames.all (levelChangeAllowed userLevel
              (ruma.roomPowerLevelsToValue currentContent)
              (ruma.roomPowerLevelsToValue userContent)))

def checkRedaction (redactionEvent : Pdu) (userLevel redactLevel : Int) :
    Bool :=
  userLevel ≥ redactLevel ||
    serverName redactionEvent.eventId == redactionEvent.redacts.bind serverName

def matchesPublicKey (content : RoomThirdPartyInviteEventContent)
    (token : Bytes) : Bool :=
  (content.publicKeys.getD []).contains token || content.publicKey == token

def verifyThirdPartyInvite (targetUser sender : UserId)
    (invite : ThirdPartyInvite) (currentThirdPartyInvite : Option Pdu) : Bool :=
  match currentThirdPartyInvite with
  | none => false
  | some current =>
      if targetUser ≠ invite.mxid then false
      else if current.stateKey ≠ some invite.token then false
      else if sender ≠ current.sender then false
      else
        match ruma.roomThirdPartyInvite current.content,
          ruma.parseBase64 invite.token with
        | some content, some token => matchesPublicKey content token
        | _, _ => false

structure MembershipChange where
  targetUser : UserId
  targetUserMembershipEvent : Option Pdu
  sender : UserId
  senderMembershipEvent : Option Pdu
  currentEvent : Pdu
  currentThirdPartyInvite : Option Pdu
  powerLevelsEvent : Option Pdu
  joinRulesEvent : Option Pdu
  userForJoinAuth : Option UserId
  userForJoinAuthMembership : MembershipState
  createRoom : Pdu

def contentCreator (createEvent : Pdu) : Outcome UserId := do
  let content ← expectSome unwrapErr (ruma.roomCreate createEvent.content)
  expectSome unwrapErr content.creator

def isCreator (creators : List UserId) (createEvent : Pdu) (userId : UserId)
    (havePls : Bool) : Outcome Bool :=
  if roomVersion.explicitlyPrivilegeRoomCreators then
    .ok (creators.contains userId)
  else if roomVersion.useRoomCreateSender && !havePls then
    .ok (createEvent.sender == userId)
  else if !havePls then do
    let creator ← contentCreator ruma createEvent
    return creator == userId
  else .ok false

/-- What the rules for a membership change look at. -/
structure MembershipFacts where
  targetMembership : MembershipState
  thirdPartyInvite : Option ThirdPartyInvite
  senderMembership : MembershipState
  targetUserCurrentMembership : MembershipState
  powerLevels : RoomPowerLevelsEventContent
  senderPower : Option Int
  targetPower : Option Int
  joinRules : JoinRule
  userForJoinAuthIsValid : Bool
  senderCreator : Bool
  targetCreator : Bool

def membershipIn (event : Option Pdu) : Outcome MembershipState :=
  match event with
  | none => .ok .leave
  | some event => do
      let content ← orSerde (GetMembership.decode event.content)
      return content.membership

def powerLevelsIn (event : Option Pdu) : Outcome RoomPowerLevelsEventContent :=
  match event with
  | none => .ok RoomPowerLevelsEventContent.default
  | some event => orSerde (ruma.roomPowerLevels event.content)

def joinRulesIn (event : Option Pdu) : Outcome JoinRule :=
  match event with
  | none => .ok .invite
  | some event => orSerde (ruma.roomJoinRules event.content)

def listedPower (powerLevels : RoomPowerLevelsEventContent) (user : UserId)
    (orDefault : Bool) : Option Int :=
  match powerLevels.users.lookup user with
  | some level => some level
  | none => if orDefault then some powerLevels.usersDefault else none

def joinAuthLevels (powerLevelsEvent : Option Pdu) (user : UserId) :
    Outcome (Int × Int) :=
  match powerLevelsEvent with
  | none => .ok (0, 0)
  | some event => do
      let invite ← orSerde
        (deserializePowerLevelsContentInvite ruma event.content roomVersion)
      let content ← orSerde
        (deserializePowerLevelsContentFields ruma event.content roomVersion)
      return (content.userLevel user, invite)

def joinAuthIsValid (creators : List UserId) (change : MembershipChange) :
    Outcome Bool :=
  match change.userForJoinAuth with
  | none => .ok false
  | some user => do
      let (userLevel, inviteLevel) ←
        joinAuthLevels ruma roomVersion change.powerLevelsEvent user
      let creator ← isCreator ruma roomVersion creators change.createRoom user
        change.powerLevelsEvent.isSome
      return change.userForJoinAuthMembership == .join &&
        (creator || decide (userLevel ≥ inviteLevel))

variable (createContent : RoomCreateContentFields)

def roomCreators (createRoom : Pdu) : List UserId :=
  if roomVersion.explicitlyPrivilegeRoomCreators then
    createRoom.sender :: createContent.validCreators ruma
  else [createRoom.sender]

/-- A privileged creator has the highest level. -/
def privilegedPower (creators : List UserId) (user : UserId)
    (power : Option Int) : Option Int :=
  if roomVersion.explicitlyPrivilegeRoomCreators && creators.contains user
  then some maxInt
  else power

def membershipFacts (change : MembershipChange) : Outcome MembershipFacts := do
  let createContent ←
    orSerde (RoomCreateContentFields.decode change.createRoom.content)
  let target ← orSerde (GetMembership.decode change.currentEvent.content)
  let content ←
    orSerde (RoomMemberContentFields.decode change.currentEvent.content)
  let senderMembership ← membershipIn change.senderMembershipEvent
  let targetUserCurrentMembership ←
    membershipIn change.targetUserMembershipEvent
  let powerLevels ← powerLevelsIn ruma change.powerLevelsEvent
  let creators := roomCreators ruma roomVersion createContent change.createRoom
  let senderPower := privilegedPower roomVersion creators change.sender
    (listedPower powerLevels change.sender (senderMembership == .join))
  -- The default level of the target hangs on the new membership, not on the
  -- one that the target has.
  let targetPower := privilegedPower roomVersion creators change.targetUser
    (listedPower powerLevels change.targetUser (target.membership == .join))
  let joinRules ← joinRulesIn ruma change.joinRulesEvent
  let userForJoinAuthIsValid ← joinAuthIsValid ruma roomVersion creators change
  let senderCreator ← isCreator ruma roomVersion creators change.createRoom
    change.sender change.powerLevelsEvent.isSome
  let targetCreator ← isCreator ruma roomVersion creators change.createRoom
    change.targetUser change.powerLevelsEvent.isSome
  return {
    targetMembership := target.membership
    thirdPartyInvite := content.thirdPartyInvite.bind ruma.thirdPartyInvite
    senderMembership, targetUserCurrentMembership, powerLevels, senderPower,
    targetPower, joinRules, userForJoinAuthIsValid, senderCreator,
    targetCreator }

def reaches (power : Option Int) (level : Int) : Bool :=
  match power with
  | none => false
  | some power => decide (power ≥ level)

/-- `<` on optional levels: a missing level is below every other. -/
def powerBelow : Option Int → Option Int → Bool
  | none, some _ => true
  | some left, some right => decide (left < right)
  | _, none => false

def joinRuleAllows (facts : MembershipFacts) : Bool :=
  let membershipAllowsJoin := facts.targetUserCurrentMembership == .join ||
      facts.targetUserCurrentMembership == .invite
  match facts.joinRules with
  | .invite => membershipAllowsJoin
  | .knock => roomVersion.allowKnocking && membershipAllowsJoin
  | .knockRestricted =>
      roomVersion.knockRestrictedJoinRule &&
        (membershipAllowsJoin || facts.userForJoinAuthIsValid)
  | .restricted => membershipAllowsJoin || facts.userForJoinAuthIsValid
  | .publicRoom => true
  | _ => false

variable (change : MembershipChange) (facts : MembershipFacts)

def joinAllowed : Bool :=
  if change.currentEvent.prevEvents == [change.createRoom.eventId] &&
      facts.senderCreator && facts.targetCreator then true
  else if change.sender ≠ change.targetUser then false
  else if facts.targetUserCurrentMembership = .ban then false
  else joinRuleAllows roomVersion facts

def inviteAllowed : Bool :=
  match facts.thirdPartyInvite with
  | some invite =>
      if facts.targetUserCurrentMembership = .ban then false
      else
        verifyThirdPartyInvite ruma change.targetUser change.sender invite
          change.currentThirdPartyInvite
  | none =>
      if facts.senderMembership ≠ .join then false
      else if facts.targetUserCurrentMembership = .join ∨
          facts.targetUserCurrentMembership = .ban then false
      else
        facts.senderCreator ||
          reaches facts.senderPower facts.powerLevels.invite

def canUnban : Bool :=
  if facts.targetUserCurrentMembership = .ban then
    facts.senderCreator || reaches facts.senderPower facts.powerLevels.ban
  else true

def canKick : Bool :=
  if facts.targetUserCurrentMembership = .ban ∨
      facts.targetUserCurrentMembership = .leave then true
  else if facts.senderCreator then true
  else if !reaches facts.senderPower facts.powerLevels.kick then false
  else
    match facts.senderPower, facts.targetPower with
    | some senderPower, some targetPower => decide (senderPower > targetPower)
    | some _, none => true
    | none, _ => false

def leaveAllowed : Bool :=
  if change.sender = change.targetUser then
    facts.targetUserCurrentMembership == .join ||
      facts.targetUserCurrentMembership == .invite ||
      facts.targetUserCurrentMembership == .knock
  else if facts.senderMembership ≠ .join then false
  else canUnban facts && canKick facts

def banAllowed : Bool :=
  if facts.senderMembership ≠ .join then false
  else
    facts.senderCreator ||
      (reaches facts.senderPower facts.powerLevels.ban &&
        powerBelow facts.targetPower facts.senderPower)

def knockAllowed : Bool :=
  if facts.joinRules ≠ .knock ∧ facts.joinRules ≠ .knockRestricted then false
  else if facts.joinRules = .knockRestricted ∧
      roomVersion.knockRestrictedJoinRule = false then false
  else if change.sender ≠ change.targetUser then false
  else
    facts.senderMembership != .ban && facts.senderMembership != .invite &&
      facts.senderMembership != .join

def membershipAllowed : Bool :=
  match facts.targetMembership with
  | .join => joinAllowed roomVersion change facts
  | .invite => inviteAllowed ruma change facts
  | .leave => leaveAllowed change facts
  | .ban => banAllowed facts
  | .knock =>
      roomVersion.allowKnocking && knockAllowed roomVersion change facts
  | .custom _ => false

def validMembershipChange (change : MembershipChange) : Outcome Bool := do
  let facts ← membershipFacts ruma roomVersion change
  return membershipAllowed ruma roomVersion change facts

/-- The state snapshot that an event is checked against. -/
abbrev FetchState := EventType → StateKey → Option Pdu

def checkRoomCreate (event : Pdu) : Outcome Bool :=
  if event.prevEvents ≠ [] then .ok false
  else if event.roomId.isSome &&
      (event.roomId.bind serverName).isNone then .ok false
  else if event.roomId.isSome &&
      event.roomId.bind serverName != serverName event.sender then .ok false
  else do
    let content ← orSerde (RoomCreateContentFields.decode event.content)
    if content.unsupportedVersion ruma then return false
    else if roomVersion.roomIdsAsHashes && event.roomId.isSome then
      return false
    else if !roomVersion.useRoomCreateSender &&
        !roomVersion.explicitlyPrivilegeRoomCreators &&
        content.creator.isNone then return false
    else return true

variable (event : Pdu) (currentThirdPartyInvite : Option Pdu)
  (fetchState : FetchState) (createEvent : Pdu)

def membershipChange (stateKey : StateKey) (content : RoomMemberContentFields) :
    MembershipChange :=
  let userForJoinAuth :=
    content.joinAuthorisedViaUsersServer.bind ruma.decodeUserId
  { targetUser := stateKey
    targetUserMembershipEvent := fetchState .roomMember stateKey
    sender := event.sender
    senderMembershipEvent := fetchState .roomMember event.sender
    currentEvent := event
    currentThirdPartyInvite
    powerLevelsEvent := fetchState .roomPowerLevels ""
    joinRulesEvent := fetchState .roomJoinRules ""
    userForJoinAuth
    userForJoinAuthMembership :=
      ((userForJoinAuth.bind (fetchState .roomMember)).bind
        (fun event => GetMembership.decode event.content)).elim
          MembershipState.leave GetMembership.membership
    createRoom := createEvent }

def checkRoomMember : Outcome Bool :=
  match event.stateKey with
  | none => .ok false
  | some stateKey => do
      let content ← orSerde (RoomMemberContentFields.decode event.content)
      if (content.membership.bind MembershipState.decode).isNone then
        return false
      else if !ruma.validUserId stateKey then
        throw (.error (.invalidPdu (ruma.userIdError stateKey)))
      else
        validMembershipChange ruma roomVersion (membershipChange ruma event
          currentThirdPartyInvite fetchState createEvent stateKey content)

/-- Whether the creator of the room sent an event, in a room without a power
levels event. -/
def sentByCreator (createEvent : Pdu) (sender : UserId) : Outcome Bool :=
  if roomVersion.useRoomCreateSender then .ok (createEvent.sender == sender)
  else
    match ruma.roomCreate createEvent.content with
    | none => .ok false
    | some content => do
        let creator ← expectSome unwrapNone content.creator
        return creator == sender

variable (powerLevelsEvent : Option Pdu) (createEvent : Pdu) (sender : UserId)

def listedSenderLevel : Outcome Int :=
  match powerLevelsEvent with
  | some event => do
      let content ← orSerde
        (deserializePowerLevelsContentFields ruma event.content roomVersion)
      return content.userLevel sender
  | none => do
      let creator ← sentByCreator ruma roomVersion createEvent sender
      return if creator then 100 else 0

def senderPowerLevel : Outcome Int := do
  let level ←
    listedSenderLevel ruma roomVersion powerLevelsEvent createEvent sender
  if roomVersion.explicitlyPrivilegeRoomCreators &&
      (sender == createEvent.sender ||
        (createContent.validCreators ruma).contains sender) then
    return maxInt
  else return level

def checkThirdPartyInviteLevel (powerLevelsEvent : Option Pdu)
    (senderLevel : Int) : Outcome Bool :=
  match powerLevelsEvent with
  | none => .ok (decide (senderLevel ≥ 0))
  | some event => do
      let inviteLevel ← orSerde
        (deserializePowerLevelsContentInvite ruma event.content roomVersion)
      return decide (senderLevel ≥ inviteLevel)

/-- The creators that a power levels event may not list.  Here an additional
creator that does not decode is an error. -/
def privilegedCreators (createEvent : Pdu) : Outcome (List UserId) :=
  if roomVersion.explicitlyPrivilegeRoomCreators then do
    let additional ← orSerde
      ((createContent.additionalCreators.getD []).mapM ruma.decodeUserId)
    return createEvent.sender :: additional
  else .ok []

variable (event : Pdu) (powerLevelsEvent : Option Pdu)

def checkRoomPowerLevels (createEvent : Pdu) (senderLevel : Int) :
    Outcome Bool :=
  if event.kind = .roomPowerLevels then do
    let creators ← privilegedCreators ruma roomVersion createContent createEvent
    return (checkPowerLevels ruma roomVersion event powerLevelsEvent
      senderLevel creators).getD false
  else .ok true

def checkRoomRedaction (senderLevel : Int) : Outcome Bool :=
  if roomVersion.extraRedactionChecks ∧ event.kind = .roomRedaction then
    match powerLevelsEvent with
    | none => .ok (checkRedaction event senderLevel 50)
    | some powerLevels => do
        let redactLevel ← orSerde (deserializePowerLevelsContentRedact ruma
          powerLevels.content roomVersion)
        return checkRedaction event senderLevel redactLevel
  else .ok true

def checkLevels (createEvent : Pdu) : Outcome Bool := do
  let senderLevel ← senderPowerLevel ruma roomVersion createContent
    powerLevelsEvent createEvent event.sender
  if event.kind = .roomThirdPartyInvite then
    checkThirdPartyInviteLevel ruma roomVersion powerLevelsEvent senderLevel
  else if !canSendEvent ruma event powerLevelsEvent senderLevel then
    return false
  else do
    let powerLevelsAllowed ← checkRoomPowerLevels ruma roomVersion
      createContent event powerLevelsEvent createEvent senderLevel
    if powerLevelsAllowed then
      checkRoomRedaction ruma roomVersion event powerLevelsEvent senderLevel
    else return false

/-- The events that only a joined member may send. -/
def checkJoinedSender (expectedRoomId : RoomId) (event : Pdu)
    (fetchState : FetchState) (createEvent : Pdu) : Outcome Bool :=
  match fetchState .roomMember event.sender with
  | none => .ok false
  | some senderMemberEvent => do
      let roomId ← expectSome "we have a room ID for non create events"
        senderMemberEvent.roomId
      if roomId ≠ expectedRoomId then return false
      else do
        let content ←
          orSerde (RoomMemberContentFields.decode senderMemberEvent.content)
        match content.membership with
        | none => throw (.error (.invalidPdu "Missing membership field"))
        | some value => do
            let membership ← orSerde (MembershipState.decode value)
            if membership ≠ .join then return false
            else
              checkLevels ruma roomVersion createContent event
                (fetchState .roomPowerLevels "") createEvent

def powerLevelsElsewhere (expectedRoomId : RoomId)
    (powerLevelsEvent : Option Pdu) : Outcome Bool :=
  match powerLevelsEvent with
  | none => .ok false
  | some event => do
      let roomId ← expectSome unwrapNone event.roomId
      return decide (roomId ≠ expectedRoomId)

def checkByKind (expectedRoomId : RoomId) (event : Pdu)
    (currentThirdPartyInvite : Option Pdu) (fetchState : FetchState)
    (createEvent : Pdu) : Outcome Bool :=
  if !roomVersion.roomIdsAsHashes && !createContent.federate &&
      serverName createEvent.sender != serverName event.sender then .ok false
  else if roomVersion.specialCaseAliasesAuth ∧ event.kind = .roomAliases then
    .ok (event.stateKey == serverName event.sender)
  else if event.kind = .roomMember then
    checkRoomMember ruma roomVersion event currentThirdPartyInvite fetchState
      createEvent
  else
    checkJoinedSender ruma roomVersion createContent expectedRoomId event
      fetchState createEvent

def authCheck (ruma : Ruma) (roomVersion : RoomVersion)
    (incomingEvent : Pdu) (currentThirdPartyInvite : Option Pdu)
    (fetchState : FetchState) (createEvent : Pdu) : Outcome Bool :=
  if incomingEvent.kind = .roomCreate then
    checkRoomCreate ruma roomVersion incomingEvent
  else do
    let createContent ←
      orSerde (RoomCreateContentFields.decode createEvent.content)
    if createContent.unsupportedVersion ruma then return false
    else do
      let expectedRoomId ← roomIdOrHash ruma createEvent
      let roomId ← expectSome "event must have a room ID" incomingEvent.roomId
      let claimsCreateEvent :=
        incomingEvent.authEvents.contains createEvent.eventId
      if roomId ≠ expectedRoomId then return false
      else if roomVersion.roomIdsAsHashes && claimsCreateEvent then
        return false
      else if !roomVersion.roomIdsAsHashes && !claimsCreateEvent then
        return false
      else do
        let elsewhere ← powerLevelsElsewhere expectedRoomId
          (fetchState .roomPowerLevels "")
        if elsewhere then return false
        else
          checkByKind ruma roomVersion createContent expectedRoomId
            incomingEvent currentThirdPartyInvite fetchState createEvent

end ArcanaServer.StateRes
