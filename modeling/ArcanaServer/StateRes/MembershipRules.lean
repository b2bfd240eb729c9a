import ArcanaServer.StateRes.AuthLocality

namespace ArcanaServer.StateRes

open Library ArcanaServer.Matrix RoomVersion

/-! The rules for memberships, over what they read of an event and of the
state. -/

/-- The creator in a room without power levels: the sender of the create event
or, in the older versions, the user that its content names. -/
def legacyCreator (ruma : Ruma) (roomVersion : RoomVersion)
    (createEvent : Pdu) : Option UserId :=
  if roomVersion.useRoomCreateSender then some createEvent.sender
  else (ruma.roomCreate createEvent.content).bind RoomCreateEventContent.creator

def hasCreatorRights (ruma : Ruma) (roomVersion : RoomVersion)
    (creators : List UserId) (createEvent : Pdu) (havePls : Bool)
    (user : UserId) : Bool :=
  if roomVersion.explicitlyPrivilegeRoomCreators then creators.contains user
  else !havePls && legacyCreator ruma roomVersion createEvent == some user

section

variable {ruma : Ruma} {roomVersion : RoomVersion} {creators : List UserId}
  {createEvent : Pdu} {havePls : Bool}

theorem isCreator_eq
    (known : roomVersion.explicitlyPrivilegeRoomCreators = false →
      havePls = false →
      (legacyCreator ruma roomVersion createEvent).isSome = true)
    (user : UserId) :
    isCreator ruma roomVersion creators createEvent user havePls =
      .ok (hasCreatorRights ruma roomVersion creators createEvent havePls
        user) := by
  unfold isCreator hasCreatorRights
  cases privileged : roomVersion.explicitlyPrivilegeRoomCreators with
  | true => rfl
  | false =>
      cases havePls with
      | true => simp
      | false =>
          have known := known privileged rfl
          unfold legacyCreator at known ⊢
          cases usesSender : roomVersion.useRoomCreateSender with
          | true => simp
          | false =>
              rw [usesSender] at known
              obtain ⟨creator, named⟩ := Option.isSome_iff_exists.mp known
              obtain ⟨content, read, held⟩ := Option.bind_eq_some_iff.mp named
              simp [contentCreator, read, held, expectSome, bind, Except.bind,
                pure, Except.pure]

theorem known_of_isCreator {user : UserId} {answer : Bool}
    (result : isCreator ruma roomVersion creators createEvent user havePls =
      .ok answer)
    (unprivileged : roomVersion.explicitlyPrivilegeRoomCreators = false)
    (noPls : havePls = false) :
    (legacyCreator ruma roomVersion createEvent).isSome = true := by
  unfold legacyCreator
  cases usesSender : roomVersion.useRoomCreateSender with
  | true => rfl
  | false =>
      simp only [isCreator, unprivileged, usesSender, noPls, Bool.not_false,
        Bool.and_true, Bool.false_eq_true, if_false, if_true] at result
      obtain ⟨creator, named, _⟩ := bind_eq_ok result
      obtain ⟨content, read, held⟩ := bind_eq_ok named
      rw [expectSome_eq_ok.mp read]
      simp [expectSome_eq_ok.mp held]

end

structure MembershipReading (ruma : Ruma) (roomVersion : RoomVersion)
    (event : Pdu) (currentThirdPartyInvite : Option Pdu)
    (fetchState : FetchState) (createEvent : Pdu) where
  createContent : RoomCreateContentFields
  roomId : RoomId
  passes : PassesRoomChecks ruma roomVersion event fetchState createEvent
    createContent roomId
  target : UserId
  isState : event.stateKey = some target
  valid : ruma.validUserId target = true
  content : RoomMemberContentFields
  decoded : RoomMemberContentFields.decode event.content = some content
  membership : MembershipState
  held : content.membership.bind MembershipState.decode = some membership
  senderMembership : MembershipState
  senderRead : membershipIn (fetchState .roomMember event.sender) =
    .ok senderMembership
  targetMembership : MembershipState
  targetRead : membershipIn (fetchState .roomMember target) =
    .ok targetMembership
  powerLevels : RoomPowerLevelsEventContent
  powerLevelsRead : powerLevelsIn ruma (fetchState .roomPowerLevels "") =
    .ok powerLevels
  joinRule : JoinRule
  joinRuleRead : joinRulesIn ruma (fetchState .roomJoinRules "") =
    .ok joinRule
  joinAuthorised : Bool
  joinAuthRead : joinAuthIsValid ruma roomVersion
    (roomCreators ruma roomVersion createContent createEvent)
    (membershipChange ruma event currentThirdPartyInvite fetchState createEvent
      target content) = .ok joinAuthorised
  creatorRead : roomVersion.explicitlyPrivilegeRoomCreators = false →
    (fetchState .roomPowerLevels "").isSome = false →
    (legacyCreator ruma roomVersion createEvent).isSome = true

variable {ruma : Ruma} {roomVersion : RoomVersion} {event : Pdu}
  {currentThirdPartyInvite : Option Pdu} {fetchState : FetchState}
  {createEvent : Pdu}

namespace MembershipReading

variable (reading : MembershipReading ruma roomVersion event
  currentThirdPartyInvite fetchState createEvent)

def creators : List UserId :=
  roomCreators ruma roomVersion reading.createContent createEvent

def change : MembershipChange :=
  membershipChange ruma event currentThirdPartyInvite fetchState createEvent
    reading.target reading.content

def isCreator (user : UserId) : Bool :=
  hasCreatorRights ruma roomVersion reading.creators createEvent
    (fetchState .roomPowerLevels "").isSome user

def facts : MembershipFacts where
  targetMembership := reading.membership
  thirdPartyInvite := reading.content.thirdPartyInvite.bind
    ruma.thirdPartyInvite
  senderMembership := reading.senderMembership
  targetUserCurrentMembership := reading.targetMembership
  powerLevels := reading.powerLevels
  senderPower := privilegedPower roomVersion reading.creators event.sender
    (listedPower reading.powerLevels event.sender
      (reading.senderMembership == .join))
  targetPower := privilegedPower roomVersion reading.creators reading.target
    (listedPower reading.powerLevels reading.target
      (reading.membership == .join))
  joinRules := reading.joinRule
  userForJoinAuthIsValid := reading.joinAuthorised
  senderCreator := reading.isCreator event.sender
  targetCreator := reading.isCreator reading.target

@[simp] theorem change_prevEvents :
    reading.change.currentEvent.prevEvents = event.prevEvents := rfl

@[simp] theorem change_createEventId :
    reading.change.createRoom.eventId = createEvent.eventId := rfl

@[simp] theorem change_sender : reading.change.sender = event.sender := rfl

@[simp] theorem change_targetUser :
    reading.change.targetUser = reading.target := rfl

@[simp] theorem facts_targetMembership :
    reading.facts.targetMembership = reading.membership := rfl

@[simp] theorem facts_senderMembership :
    reading.facts.senderMembership = reading.senderMembership := rfl

@[simp] theorem facts_targetUserCurrentMembership :
    reading.facts.targetUserCurrentMembership = reading.targetMembership :=
  rfl

@[simp] theorem facts_powerLevels :
    reading.facts.powerLevels = reading.powerLevels := rfl

@[simp] theorem facts_joinRules :
    reading.facts.joinRules = reading.joinRule := rfl

@[simp] theorem facts_userForJoinAuthIsValid :
    reading.facts.userForJoinAuthIsValid = reading.joinAuthorised := rfl

@[simp] theorem facts_senderCreator :
    reading.facts.senderCreator = reading.isCreator event.sender := rfl

@[simp] theorem facts_targetCreator :
    reading.facts.targetCreator = reading.isCreator reading.target := rfl

theorem membershipFacts_eq :
    membershipFacts ruma roomVersion reading.change = .ok reading.facts := by
  have target := getMembership_decode reading.decoded reading.held
  have creator := @isCreator_eq ruma roomVersion reading.creators createEvent _
    reading.creatorRead
  have authorised : joinAuthIsValid ruma roomVersion reading.creators
      reading.change = .ok reading.joinAuthorised := reading.joinAuthRead
  unfold membershipFacts
  simp only [change, membershipChange, creators] at authorised creator
  simp only [change, membershipChange, reading.passes.created, target,
    reading.decoded, reading.senderRead, reading.targetRead,
    reading.powerLevelsRead, reading.joinRuleRead, orSerde, ok_bind,
    authorised, creator]
  rfl

theorem checkRoomMember_eq_allowed :
    checkRoomMember ruma roomVersion event currentThirdPartyInvite fetchState
        createEvent =
      .ok (membershipAllowed ruma roomVersion reading.change
        reading.facts) := by
  have facts := reading.membershipFacts_eq
  simp only [change] at facts
  simp only [checkRoomMember, reading.isState, reading.decoded, orSerde,
    reading.held, Option.isNone_some, reading.valid, Bool.not_true,
    Bool.false_eq_true, if_false, validMembershipChange, facts, ok_bind]
  rfl

theorem authCheck_eq_allowed (isMember : event.kind = .roomMember) :
    authCheck ruma roomVersion event currentThirdPartyInvite fetchState
        createEvent =
      .ok (membershipAllowed ruma roomVersion reading.change reading.facts) :=
  (authCheck_member isMember reading.passes).trans
    reading.checkRoomMember_eq_allowed

end MembershipReading

theorem exists_reading {createContent : RoomCreateContentFields}
    {roomId : RoomId}
    (passes : PassesRoomChecks ruma roomVersion event fetchState createEvent
      createContent roomId)
    (accepted : checkRoomMember ruma roomVersion event currentThirdPartyInvite
      fetchState createEvent = .ok true) :
    Nonempty (MembershipReading ruma roomVersion event currentThirdPartyInvite
      fetchState createEvent) := by
  unfold checkRoomMember at accepted
  split at accepted
  · cases accepted
  next target isState =>
  obtain ⟨content, decoded, accepted⟩ := bind_eq_ok accepted
  split at accepted
  · cases accepted
  next held =>
  split at accepted
  · cases accepted
  next valid =>
  rw [Option.isNone_iff_eq_none] at held
  obtain ⟨membership, held⟩ := Option.ne_none_iff_exists'.mp held
  obtain ⟨facts, read, _⟩ := bind_eq_ok accepted
  simp only [membershipFacts, membershipChange] at read
  obtain ⟨otherContent, created, read⟩ := bind_eq_ok read
  rw [orSerde_eq_ok, passes.created] at created
  cases created
  obtain ⟨_, _, read⟩ := bind_eq_ok read
  obtain ⟨_, _, read⟩ := bind_eq_ok read
  obtain ⟨senderMembership, senderRead, read⟩ := bind_eq_ok read
  obtain ⟨targetMembership, targetRead, read⟩ := bind_eq_ok read
  obtain ⟨powerLevels, powerLevelsRead, read⟩ := bind_eq_ok read
  obtain ⟨joinRule, joinRuleRead, read⟩ := bind_eq_ok read
  obtain ⟨joinAuthorised, joinAuthRead, read⟩ := bind_eq_ok read
  obtain ⟨senderCreator, senderIsCreator, _⟩ := bind_eq_ok read
  exact ⟨{
    createContent, roomId, passes, target, isState, content, membership, held,
    senderMembership, senderRead, targetMembership, targetRead, powerLevels,
    powerLevelsRead, joinRule, joinRuleRead, joinAuthorised, joinAuthRead
    decoded := orSerde_eq_ok.mp decoded
    valid := by simpa using valid
    creatorRead := known_of_isCreator senderIsCreator }⟩

theorem authCheck_member_iff (isMember : event.kind = .roomMember) :
    authCheck ruma roomVersion event currentThirdPartyInvite fetchState
        createEvent = .ok true ↔
      ∃ reading : MembershipReading ruma roomVersion event
        currentThirdPartyInvite fetchState createEvent,
        membershipAllowed ruma roomVersion reading.change reading.facts =
          true := by
  constructor
  · intro accepted
    obtain ⟨createContent, roomId, passes⟩ :=
      passes_of_accepted (by simp [isMember]) accepted
    rw [authCheck_member isMember passes] at accepted
    obtain ⟨reading⟩ := exists_reading passes accepted
    rw [reading.checkRoomMember_eq_allowed] at accepted
    exact ⟨reading, Except.ok.inj accepted⟩
  · rintro ⟨reading, allowed⟩
    rw [reading.authCheck_eq_allowed isMember, allowed]

namespace MembershipReading

variable (reading : MembershipReading ruma roomVersion event
  currentThirdPartyInvite fetchState createEvent)

def Invited : Prop :=
  reading.targetMembership = .join ∨ reading.targetMembership = .invite

/-- The event names a joined member who may invite. -/
def Authorised : Prop := ∃ user userLevel inviteLevel,
    reading.content.joinAuthorisedViaUsersServer.bind ruma.decodeUserId =
      some user ∧
    membershipIn (fetchState .roomMember user) = .ok .join ∧
    joinAuthLevels ruma roomVersion (fetchState .roomPowerLevels "") user =
      .ok (userLevel, inviteLevel) ∧
    (reading.isCreator user = true ∨ inviteLevel ≤ userLevel)

/-- The version of the room has the join rule, and what it asks for is met. -/
def JoinRuleMet : Prop :=
  match reading.joinRule with
  | .publicRoom => True
  | .invite => reading.Invited
  | .knock => roomVersion.allowKnocking = true ∧ reading.Invited
  | .restricted =>
      roomVersion.restrictedJoinRules = true ∧
        (reading.Invited ∨ reading.Authorised)
  | .knockRestricted =>
      roomVersion.knockRestrictedJoinRule = true ∧
        (reading.Invited ∨ reading.Authorised)
  | .privateRoom | .custom _ => False

/-- The sender of the create event follows it with a join. -/
def FollowsCreate : Prop := event.prevEvents = [createEvent.eventId] ∧
    reading.target = createEvent.sender

structure JoinSound : Prop where
  own : event.sender = reading.target
  notBanned : reading.targetMembership ≠ .ban
  rule : reading.FollowsCreate ∨ reading.JoinRuleMet

/-- The join follows the create event, and its sender and its target are
creators of the room; then nothing else is checked. -/
def CreatorsJoin : Prop := event.prevEvents = [createEvent.eventId] ∧
    reading.isCreator event.sender = true ∧
    reading.isCreator reading.target = true

/-- The join rule is restricted in a version that does not have it, and the
rest of the rule is met. -/
def UnknownRestricted : Prop := reading.joinRule = .restricted ∧
    roomVersion.restrictedJoinRules = false ∧
    event.sender = reading.target ∧ reading.targetMembership ≠ .ban ∧
    (reading.Invited ∨ reading.Authorised)

theorem membershipIn_eq_join {event : Option Pdu} :
    ((event.bind (fun event => GetMembership.decode event.content)).elim
      MembershipState.leave GetMembership.membership == .join) = true ↔
      membershipIn event = .ok .join := by
  cases event with
  | none => simp [membershipIn]
  | some event =>
      cases read : GetMembership.decode event.content with
      | none => simp [membershipIn, read, orSerde, bind, Except.bind]
      | some content =>
          simp [membershipIn, read, orSerde, bind, Except.bind, pure,
            Except.pure]

theorem joinAuthorised_iff :
    reading.joinAuthorised = true ↔ reading.Authorised := by
  have read := reading.joinAuthRead
  have creator := @isCreator_eq ruma roomVersion reading.creators createEvent _
    reading.creatorRead
  unfold joinAuthIsValid at read
  simp only [membershipChange] at read
  unfold Authorised
  cases named : reading.content.joinAuthorisedViaUsersServer.bind
    ruma.decodeUserId with
  | none =>
      rw [named] at read
      rw [← Except.ok.inj read]
      simp
  | some user =>
      rw [named] at read
      obtain ⟨⟨userLevel, inviteLevel⟩, levels, read⟩ := bind_eq_ok read
      dsimp only at read
      simp only [creators] at creator
      rw [creator, ok_bind] at read
      rw [← Except.ok.inj read, Bool.and_eq_true, Option.bind_some,
        membershipIn_eq_join, Bool.or_eq_true, decide_eq_true_eq]
      constructor
      · rintro ⟨joined, may⟩
        exact ⟨user, userLevel, inviteLevel, rfl, joined, levels, may⟩
      · rintro ⟨other, otherLevel, needed, same, joined, otherLevels, may⟩
        cases same
        rw [levels] at otherLevels
        cases otherLevels
        exact ⟨joined, may⟩

theorem joinRuleAllows_iff : joinRuleAllows roomVersion reading.facts = true ↔
      reading.JoinRuleMet ∨ (reading.joinRule = .restricted ∧
          roomVersion.restrictedJoinRules = false ∧
          (reading.Invited ∨ reading.Authorised)) := by
  unfold joinRuleAllows JoinRuleMet
  rw [facts_joinRules, facts_targetUserCurrentMembership,
    facts_userForJoinAuthIsValid, ← joinAuthorised_iff]
  cases reading.joinRule with
  | restricted =>
      cases known : roomVersion.restrictedJoinRules <;> simp [Invited]
  | _ => simp [Invited]

theorem joinAllowed_iff :
    joinAllowed roomVersion reading.change reading.facts = true ↔
      reading.CreatorsJoin ∨
        (event.sender = reading.target ∧ reading.targetMembership ≠ .ban ∧
          joinRuleAllows roomVersion reading.facts = true) := by
  have early : (event.prevEvents == [createEvent.eventId] &&
      reading.isCreator event.sender &&
      reading.isCreator reading.target) = true ↔ reading.CreatorsJoin := by
    simp [CreatorsJoin, and_assoc]
  unfold joinAllowed
  rw [change_prevEvents, change_createEventId, change_sender,
    change_targetUser, facts_senderCreator, facts_targetCreator,
    facts_targetUserCurrentMembership]
  by_cases first : reading.CreatorsJoin
  · rw [if_pos (early.mpr first)]
    simp [first]
  · rw [if_neg (fun holds => first (early.mp holds))]
    by_cases own : event.sender = reading.target
    · by_cases banned : reading.targetMembership = .ban
      · simp [first, own, banned]
      · simp [first, own, banned]
    · simp [first, own]

theorem not_met_of_unknown (restricted : reading.joinRule = .restricted)
    (unknown : roomVersion.restrictedJoinRules = false) :
    ¬ reading.JoinRuleMet := by
  unfold JoinRuleMet
  rw [restricted]
  simp [unknown]

theorem joinAllowed_exact :
    (joinAllowed roomVersion reading.change reading.facts = true →
        reading.JoinSound) ↔
      (reading.CreatorsJoin →
        event.sender = reading.target ∧ reading.targetMembership ≠ .ban ∧
          (reading.target = createEvent.sender ∨ reading.JoinRuleMet)) ∧
      (reading.UnknownRestricted → reading.FollowsCreate) := by
  rw [reading.joinAllowed_iff, reading.joinRuleAllows_iff]
  constructor
  · intro sound
    refine ⟨fun first => ?_, ?_⟩
    · obtain ⟨own, notBanned, rule⟩ := sound (.inl first)
      exact ⟨own, notBanned, rule.imp_left And.right⟩
    rintro ⟨restricted, unknown, own, notBanned, may⟩
    have holds := sound (.inr ⟨own, notBanned, .inr ⟨restricted, unknown, may⟩⟩)
    exact holds.rule.resolve_right
      (reading.not_met_of_unknown restricted unknown)
  · rintro ⟨creators, unknownRestricted⟩
    rintro (first | ⟨own, notBanned, met | ⟨restricted, unknown, may⟩⟩)
    · obtain ⟨own, notBanned, rule⟩ := creators first
      exact ⟨own, notBanned, rule.imp_left (fun same => ⟨first.1, same⟩)⟩
    · exact ⟨own, notBanned, .inr met⟩
    · exact ⟨own, notBanned, .inl (unknownRestricted
        ⟨restricted, unknown, own, notBanned, may⟩)⟩

end MembershipReading

/-- An accepted join is sound, if and only if those of creators right behind
the create event happen to be, which are not checked any further, and the
restricted rule lets nobody in where the version does not have it. -/
theorem authCheck_join (isMember : event.kind = .roomMember) :
    (authCheck ruma roomVersion event currentThirdPartyInvite fetchState
        createEvent = .ok true →
      Nonempty (MembershipReading ruma roomVersion event
        currentThirdPartyInvite fetchState createEvent)) ∧
    ∀ reading : MembershipReading ruma roomVersion event
        currentThirdPartyInvite fetchState createEvent,
      reading.membership = .join →
        ((authCheck ruma roomVersion event currentThirdPartyInvite fetchState
            createEvent = .ok true → reading.JoinSound) ↔
          (reading.CreatorsJoin →
            event.sender = reading.target ∧ reading.targetMembership ≠ .ban ∧
              (reading.target = createEvent.sender ∨ reading.JoinRuleMet)) ∧
          (reading.UnknownRestricted → reading.FollowsCreate)) := by
  constructor
  · intro accepted
    exact ((authCheck_member_iff isMember).mp accepted).nonempty
  · intro reading joins
    rw [reading.authCheck_eq_allowed isMember, Except.ok.injEq,
      membershipAllowed, reading.facts_targetMembership, joins]
    exact reading.joinAllowed_exact

namespace TwoCreators

def createPdu (roomId : Option RoomId) (content : List (String × Json)) : Pdu :=
  { Pdu.message "$create" "" "@alice:h" with
    roomId, kind := .roomCreate, content := .obj content, stateKey := some "" }

def joinPdu (roomId : RoomId) (sender : UserId)
    (authorising : List (String × Json))
    (prevEvents authEvents : List EventId) : Pdu :=
  { Pdu.message "$join" roomId sender with
    originServerTs := 1, kind := .roomMember,
    content := .obj (("membership", .str "join") :: authorising),
    stateKey := some "@bob:h", prevEvents, authEvents }

def memberPdu : Pdu :=
  { Pdu.message "$alice" "!room:h" "@alice:h" with
    originServerTs := 1, kind := .roomMember,
    content := .obj [("membership", .str "join")], stateKey := some "@alice:h",
    prevEvents := ["$create"], authEvents := ["$create"] }

def joinRulesPdu (joinRule : String) : Pdu :=
  { Pdu.message "$rules" "!room:h" "@alice:h" with
    originServerTs := 2, kind := .roomJoinRules,
    content := .obj [("join_rule", .str joinRule)], stateKey := some "",
    prevEvents := ["$alice"], authEvents := ["$create", "$alice"] }

def state (joinRule : String) : FetchState
  | .roomMember, "@alice:h" => some memberPdu
  | .roomJoinRules, "" => some (joinRulesPdu joinRule)
  | _, _ => none

def bothCreators : Pdu :=
  createPdu none [("additional_creators", .arr [.str "@bob:h"])]

def namedCreator : Pdu :=
  createPdu (some "!room:h") [("creator", .str "@alice:h")]

def reading (joinRule : String) (prevEvents : List EventId) :
    MembershipReading plainRuma v7
      (joinPdu "!room:h" "@bob:h"
        [("join_authorised_via_users_server", .str "@alice:h")] prevEvents
        ["$create"]) none (state joinRule) namedCreator where
  createContent := {
    roomVersion := none, creator := some (.str "@alice:h")
    additionalCreators := none, federate := true }
  roomId := "!room:h"
  passes := {
    created := rfl, supported := rfl, expected := rfl, sameRoom := rfl
    claims := rfl
    powerLevels := fun _ found => by cases found
    federates := fun _ closed => by cases closed }
  target := "@bob:h"
  isState := rfl
  valid := rfl
  content := {
    membership := some (.str "join"), thirdPartyInvite := none
    joinAuthorisedViaUsersServer := some (.str "@alice:h") }
  decoded := rfl
  membership := .join
  held := rfl
  senderMembership := .leave
  senderRead := rfl
  targetMembership := .leave
  targetRead := rfl
  powerLevels := RoomPowerLevelsEventContent.default
  powerLevelsRead := rfl
  joinRule := joinRuleOf joinRule
  joinRuleRead := rfl
  joinAuthorised := true
  joinAuthRead := rfl
  creatorRead := fun _ _ => rfl

theorem publicJoin_sound : authCheck plainRuma v7
      (joinPdu "!room:h" "@bob:h"
        [("join_authorised_via_users_server", .str "@alice:h")] ["$rules"]
        ["$create"]) none (state "public") namedCreator = .ok true ∧
      (reading "public" ["$rules"]).JoinSound := by
  have accepted : authCheck plainRuma v7
      (joinPdu "!room:h" "@bob:h"
        [("join_authorised_via_users_server", .str "@alice:h")] ["$rules"]
        ["$create"]) none (state "public") namedCreator = .ok true := rfl
  refine ⟨accepted, ((authCheck_join rfl).2 (reading "public" ["$rules"])
    rfl).mpr ⟨?_, ?_⟩ accepted⟩
  · rintro ⟨follows, _⟩
    exact absurd follows (by decide)
  · rintro ⟨restricted, _⟩
    exact absurd restricted (by decide)

/-- One creator joins for the other, and a user joins by the restricted rule in
version 7. -/
theorem joins_unsound : authCheck plainRuma v12
        (joinPdu "!create" "@alice:h" [] ["$create"] []) none
        (fun _ _ => none) bothCreators = .ok true ∧
    (joinPdu "!create" "@alice:h" [] ["$create"] []).stateKey ≠
      some "@alice:h" ∧
    authCheck plainRuma v7
        (joinPdu "!room:h" "@bob:h"
          [("join_authorised_via_users_server", .str "@alice:h")] ["$rules"]
          ["$create"]) none (state "restricted") namedCreator = .ok true ∧
    v7.restrictedJoinRules = false ∧
    ¬ (reading "restricted" ["$rules"]).JoinSound := by
  refine ⟨rfl, by decide, rfl, rfl, fun sound => ?_⟩
  obtain ⟨follows, _⟩ | met := sound.rule
  · exact absurd follows (by decide)
  · exact (reading "restricted" ["$rules"]).not_met_of_unknown rfl rfl met

end TwoCreators

namespace MembershipReading

variable (reading : MembershipReading ruma roomVersion event
  currentThirdPartyInvite fetchState createEvent)

def privileged (user : UserId) : Bool :=
  roomVersion.explicitlyPrivilegeRoomCreators && reading.creators.contains user

def power (user : UserId) : Int :=
  if reading.privileged user then maxInt
  else if reading.isCreator user then 100
  else (reading.powerLevels.users.lookup user).getD
    reading.powerLevels.usersDefault

/-- The levels of the sender and of the target let the sender make the target
leave. -/
structure KickLevels : Prop where
  unban : reading.targetMembership = .ban →
    reading.powerLevels.ban ≤ reading.power event.sender
  kick : reading.powerLevels.kick ≤ reading.power event.sender
  above : reading.power reading.target < reading.power event.sender

structure BanLevels : Prop where
  ban : reading.powerLevels.ban ≤ reading.power event.sender
  above : reading.power reading.target < reading.power event.sender

def targetListed : Bool := reading.privileged reading.target ||
    (reading.powerLevels.users.lookup reading.target).isSome

/-- Where `valid_membership_change` lets a joined sender kick without having
compared its level to the kick level and to that of the target. -/
def KickUnchecked : Prop := reading.targetMembership = .leave ∨
  (reading.targetMembership = .ban ∧ (reading.isCreator event.sender = true ∨
      reading.powerLevels.ban ≤ reading.power event.sender)) ∨
  (reading.targetMembership ≠ .leave ∧ reading.targetMembership ≠ .ban ∧
    (reading.isCreator event.sender = true ∨
      (reading.powerLevels.kick ≤ reading.power event.sender ∧
        reading.targetListed = false)))

def BanUnchecked : Prop := reading.isCreator event.sender = true ∨
    (reading.powerLevels.ban ≤ reading.power event.sender ∧
      reading.targetListed = false)

theorem users_of_noPowerLevels
    (absent : (fetchState .roomPowerLevels "").isSome = false) :
    reading.powerLevels.users = [] := by
  have none_ : fetchState .roomPowerLevels "" = none := by simpa using absent
  have read := reading.powerLevelsRead
  rw [none_] at read
  rw [← Except.ok.inj read]
  rfl

theorem isCreator_of_listed {user : UserId}
    (unprivileged : reading.privileged user = false)
    (listed : (reading.powerLevels.users.lookup user).isSome = true) :
    reading.isCreator user = false := by
  unfold privileged at unprivileged
  unfold isCreator hasCreatorRights
  cases explicit : roomVersion.explicitlyPrivilegeRoomCreators with
  | true => simpa [explicit] using unprivileged
  | false =>
      cases held : (fetchState .roomPowerLevels "").isSome with
      | true => simp
      | false =>
          rw [reading.users_of_noPowerLevels held] at listed
          cases listed

theorem senderPower_eq (joined : reading.senderMembership = .join)
    (other : reading.isCreator event.sender = false) :
    reading.facts.senderPower = some (reading.power event.sender) := by
  have unprivileged : reading.privileged event.sender = false := by
    unfold privileged
    unfold isCreator hasCreatorRights at other
    cases explicit : roomVersion.explicitlyPrivilegeRoomCreators with
    | true => simpa [explicit] using other
    | false => rfl
  have ordinary := unprivileged
  unfold privileged at ordinary
  simp only [facts, privilegedPower, ordinary, Bool.false_eq_true, if_false,
    listedPower, joined, beq_self_eq_true, if_true, power, unprivileged, other]
  cases reading.powerLevels.users.lookup event.sender <;> rfl

theorem targetPower_eq (leaves : reading.membership ≠ .join) :
    reading.facts.targetPower =
      if reading.targetListed then some (reading.power reading.target)
      else none := by
  have notJoin : (reading.membership == .join) = false := by simpa using leaves
  cases special : reading.privileged reading.target with
  | true =>
      have same := special
      unfold privileged at same
      simp only [facts, privilegedPower, same, if_true, targetListed, special,
        Bool.true_or, power]
  | false =>
      have ordinary := special
      unfold privileged at ordinary
      simp only [facts, privilegedPower, ordinary, Bool.false_eq_true,
        if_false, listedPower, notJoin, targetListed, special, Bool.false_or,
        power]
      cases listed : reading.powerLevels.users.lookup reading.target with
      | none => rfl
      | some level =>
          have creator := reading.isCreator_of_listed special
            (by rw [listed]; rfl)
          simp [creator]

theorem reaches_senderPower (joined : reading.senderMembership = .join)
    (other : reading.isCreator event.sender = false) (level : Int) :
    reaches reading.facts.senderPower level = true ↔
      level ≤ reading.power event.sender := by
  simp [reading.senderPower_eq joined other, reaches]

theorem canUnban_iff (joined : reading.senderMembership = .join) :
    canUnban reading.facts = true ↔
      (reading.targetMembership = .ban → reading.isCreator event.sender = true ∨
          reading.powerLevels.ban ≤ reading.power event.sender) := by
  unfold canUnban
  rw [facts_targetUserCurrentMembership, facts_senderCreator, facts_powerLevels]
  by_cases banned : reading.targetMembership = .ban
  · cases special : reading.isCreator event.sender with
    | true => simp [banned]
    | false =>
        simp [banned, reading.reaches_senderPower joined special]
  · simp [banned]

theorem canKick_iff (joined : reading.senderMembership = .join)
    (leaves : reading.membership ≠ .join) :
    canKick reading.facts = true ↔
      (reading.targetMembership ≠ .ban → reading.targetMembership ≠ .leave →
        reading.isCreator event.sender = true ∨
          (reading.powerLevels.kick ≤ reading.power event.sender ∧
            (reading.targetListed = true →
              reading.power reading.target < reading.power event.sender))) := by
  unfold canKick
  rw [facts_targetUserCurrentMembership, facts_senderCreator, facts_powerLevels]
  by_cases gone : reading.targetMembership = .ban ∨
      reading.targetMembership = .leave
  · rw [if_pos gone]
    simp only [true_iff]
    exact fun notBan notLeave => absurd gone (not_or.mpr ⟨notBan, notLeave⟩)
  · rw [if_neg gone]
    obtain ⟨notBan, notLeave⟩ := not_or.mp gone
    simp only [ne_eq, notBan, not_false_eq_true, notLeave, forall_const]
    cases special : reading.isCreator event.sender with
    | true => simp
    | false =>
        by_cases enough : reading.powerLevels.kick ≤ reading.power event.sender
        · have reached := (reading.reaches_senderPower joined special _).mpr
            enough
          rw [reached, reading.senderPower_eq joined special,
            reading.targetPower_eq leaves]
          cases reading.targetListed <;> simp [enough]
        · have short : reaches reading.facts.senderPower
              reading.powerLevels.kick = false := by
            rw [Bool.eq_false_iff, ne_eq,
              reading.reaches_senderPower joined special]
            exact enough
          simp [short, enough]

theorem leaveAllowed_iff (leaves : reading.membership ≠ .join)
    (others : event.sender ≠ reading.target) :
    leaveAllowed reading.change reading.facts = true ↔
      reading.senderMembership = .join ∧
      (reading.targetMembership = .ban → reading.isCreator event.sender = true ∨
          reading.powerLevels.ban ≤ reading.power event.sender) ∧
      (reading.targetMembership ≠ .ban → reading.targetMembership ≠ .leave →
        reading.isCreator event.sender = true ∨
          (reading.powerLevels.kick ≤ reading.power event.sender ∧
            (reading.targetListed = true →
              reading.power reading.target < reading.power event.sender))) := by
  unfold leaveAllowed
  rw [change_sender, change_targetUser, facts_senderMembership, if_neg others]
  by_cases joined : reading.senderMembership = .join
  · rw [if_neg (not_not.mpr joined), Bool.and_eq_true,
      reading.canUnban_iff joined, reading.canKick_iff joined leaves]
    simp only [joined, true_and]
  · simp [joined]

theorem banAllowed_iff (bans : reading.membership ≠ .join) :
    banAllowed reading.facts = true ↔ reading.senderMembership = .join ∧
      (reading.isCreator event.sender = true ∨
        (reading.powerLevels.ban ≤ reading.power event.sender ∧
          (reading.targetListed = true →
            reading.power reading.target < reading.power event.sender))) := by
  unfold banAllowed
  rw [facts_senderMembership, facts_senderCreator, facts_powerLevels]
  by_cases joined : reading.senderMembership = .join
  · rw [if_neg (not_not.mpr joined), Bool.or_eq_true, Bool.and_eq_true]
    simp only [joined, true_and]
    cases special : reading.isCreator event.sender with
    | true => simp
    | false =>
        rw [reading.reaches_senderPower joined special,
          reading.senderPower_eq joined special, reading.targetPower_eq bans]
        cases reading.targetListed <;> simp [powerBelow]
  · simp [joined]

theorem leaveAllowed_exact (leaves : reading.membership ≠ .join)
    (others : event.sender ≠ reading.target) :
    (leaveAllowed reading.change reading.facts = true ↔
        reading.senderMembership = .join ∧ reading.KickLevels) ↔
      (reading.senderMembership = .join → reading.KickUnchecked →
        reading.KickLevels) := by
  rw [reading.leaveAllowed_iff leaves others]
  constructor
  · intro exact_ joined unchecked
    refine (exact_.mp ⟨joined, ?_, ?_⟩).2
    · intro banned
      rcases unchecked with left | ⟨_, may⟩ | ⟨_, notBan, _⟩
      · rw [left] at banned
        cases banned
      · exact may
      · exact absurd banned notBan
    · intro notBan notLeave
      rcases unchecked with left | ⟨banned, _⟩ | ⟨_, _, may⟩
      · exact absurd left notLeave
      · exact absurd banned notBan
      · refine may.imp_right (fun ⟨kick, unlisted⟩ => ⟨kick, ?_⟩)
        intro listed
        rw [unlisted] at listed
        cases listed
  · intro checked
    constructor
    · rintro ⟨joined, unban, kick⟩
      refine ⟨joined, ?_⟩
      by_cases unchecked : reading.KickUnchecked
      · exact checked joined unchecked
      · simp only [KickUnchecked, not_or, not_and] at unchecked
        obtain ⟨notLeave, notUnbanned, unlisted⟩ := unchecked
        have notBan : reading.targetMembership ≠ .ban := fun banned =>
          (unban banned).elim (notUnbanned banned).1 (notUnbanned banned).2
        obtain ⟨notCreator, listed⟩ := unlisted notLeave notBan
        obtain creator | ⟨enough, above⟩ := kick notBan notLeave
        · exact absurd creator notCreator
        · exact ⟨fun banned => absurd banned notBan, enough,
            above (by simpa using listed enough)⟩
    · rintro ⟨joined, levels⟩
      exact ⟨joined, fun banned => .inr (levels.unban banned),
        fun _ _ => .inr ⟨levels.kick, fun _ => levels.above⟩⟩

theorem banAllowed_exact (bans : reading.membership ≠ .join) :
    (banAllowed reading.facts = true ↔
        reading.senderMembership = .join ∧ reading.BanLevels) ↔
      (reading.senderMembership = .join → reading.BanUnchecked →
        reading.BanLevels) := by
  rw [reading.banAllowed_iff bans]
  constructor
  · intro exact_ joined unchecked
    refine (exact_.mp ⟨joined, unchecked.imp_right
      (fun ⟨ban, unlisted⟩ => ⟨ban, ?_⟩)⟩).2
    intro listed
    rw [unlisted] at listed
    cases listed
  · intro checked
    constructor
    · rintro ⟨joined, may⟩
      refine ⟨joined, ?_⟩
      by_cases unchecked : reading.BanUnchecked
      · exact checked joined unchecked
      · simp only [BanUnchecked, not_or, not_and] at unchecked
        obtain creator | ⟨ban, above⟩ := may
        · exact absurd creator unchecked.1
        · exact ⟨ban, above (by simpa using unchecked.2 ban)⟩
    · rintro ⟨joined, levels⟩
      exact ⟨joined, .inr ⟨levels.ban, fun _ => levels.above⟩⟩

end MembershipReading

/-- Where the rules are reached, kicks, unbans and bans are accepted just when
the sender is joined and the levels allow them, if and only if the levels allow
those that the code lets pass without a comparison. -/
theorem authCheck_kickAndBan (isMember : event.kind = .roomMember) :
    (authCheck ruma roomVersion event currentThirdPartyInvite fetchState
        createEvent = .ok true →
      Nonempty (MembershipReading ruma roomVersion event
        currentThirdPartyInvite fetchState createEvent)) ∧
    ∀ reading : MembershipReading ruma roomVersion event
        currentThirdPartyInvite fetchState createEvent,
      (reading.membership = .leave → event.sender ≠ reading.target →
        ((authCheck ruma roomVersion event currentThirdPartyInvite fetchState
              createEvent = .ok true ↔
            reading.senderMembership = .join ∧ reading.KickLevels) ↔
          (reading.senderMembership = .join → reading.KickUnchecked →
            reading.KickLevels))) ∧
      (reading.membership = .ban →
        ((authCheck ruma roomVersion event currentThirdPartyInvite fetchState
              createEvent = .ok true ↔
            reading.senderMembership = .join ∧ reading.BanLevels) ↔
          (reading.senderMembership = .join → reading.BanUnchecked →
            reading.BanLevels))) := by
  constructor
  · intro accepted
    exact ((authCheck_member_iff isMember).mp accepted).nonempty
  · intro reading
    rw [reading.authCheck_eq_allowed isMember, Except.ok.injEq,
      membershipAllowed, reading.facts_targetMembership]
    constructor
    · intro leaves others
      rw [leaves]
      exact reading.leaveAllowed_exact (by simp [leaves]) others
    · intro bans
      rw [bans]
      exact reading.banAllowed_exact (by simp [bans])

/-! A room whose members all have the default level, and that level is the one
that kicks and bans need. -/

namespace DefaultRoom

open AliceRoom (createPdu)

def memberPdu (sender target membership : String) : Pdu :=
  { Pdu.message "$member" "!room:h" sender with
    originServerTs := 1, kind := .roomMember,
    content := .obj [("membership", .str membership)], stateKey := some target,
    prevEvents := ["$levels"], authEvents := ["$create"] }

def levelsPdu (users : List (String × Json)) : Pdu :=
  { Pdu.message "$levels" "!room:h" "@alice:h" with
    originServerTs := 1, kind := .roomPowerLevels,
    content := .obj [("users", .obj users), ("users_default", .int 50)],
    stateKey := some "", prevEvents := ["$create"], authEvents := ["$create"] }

def state (users : List (String × Json)) : FetchState
  | .roomMember, user => some (memberPdu user user "join")
  | .roomPowerLevels, "" => some (levelsPdu users)
  | _, _ => none

def reading (users : List (String × Json)) (name : String)
    {powerLevels : RoomPowerLevelsEventContent}
    (read : powerLevelsIn plainRuma (some (levelsPdu users)) =
      .ok powerLevels) :
    MembershipReading plainRuma v11
      (memberPdu "@bob:h" "@carol:h" name) none (state users) createPdu where
  createContent := {
    roomVersion := none, creator := none, additionalCreators := none
    federate := true }
  roomId := "!room:h"
  passes := {
    created := rfl, supported := rfl, expected := rfl, sameRoom := rfl
    claims := rfl
    powerLevels := fun _ found => by cases found; rfl
    federates := fun _ closed => by cases closed }
  target := "@carol:h"
  isState := rfl
  valid := rfl
  content := {
    membership := some (.str name), thirdPartyInvite := none
    joinAuthorisedViaUsersServer := none }
  decoded := rfl
  membership := MembershipState.ofString name
  held := rfl
  senderMembership := .join
  senderRead := rfl
  targetMembership := .join
  targetRead := rfl
  powerLevels
  powerLevelsRead := read
  joinRule := .invite
  joinRuleRead := rfl
  joinAuthorised := false
  joinAuthRead := rfl
  creatorRead := fun _ absent => by cases absent

/-- With a level of his own above the default he may do both. -/
theorem bobAbove_kicks : authCheck plainRuma v11
        (memberPdu "@bob:h" "@carol:h" "leave") none
        (state [("@bob:h", .int 60)]) createPdu = .ok true ∧
      authCheck plainRuma v11
        (memberPdu "@bob:h" "@carol:h" "ban") none
        (state [("@bob:h", .int 60)]) createPdu = .ok true := by
  have levels : (reading [("@bob:h", .int 60)] "leave" rfl).KickLevels :=
    ⟨fun banned => (nomatch banned), by decide, by decide⟩
  have banLevels : (reading [("@bob:h", .int 60)] "ban" rfl).BanLevels :=
    ⟨by decide, by decide⟩
  refine ⟨?_, ?_⟩
  · exact (((authCheck_kickAndBan rfl).2 (reading [("@bob:h", .int 60)]
      "leave" rfl)).1 rfl (by decide)).mpr (fun _ _ => levels) |>.mpr
        ⟨rfl, levels⟩
  · exact (((authCheck_kickAndBan rfl).2 (reading [("@bob:h", .int 60)]
      "ban" rfl)).2 rfl).mpr (fun _ _ => banLevels) |>.mpr ⟨rfl, banLevels⟩

/-- At the default level he kicks and bans his equal. -/
theorem bob_kicks_equal : authCheck plainRuma v11
        (memberPdu "@bob:h" "@carol:h" "leave") none (state []) createPdu =
      .ok true ∧
    ¬ (reading [] "leave" rfl).KickLevels ∧
    authCheck plainRuma v11
        (memberPdu "@bob:h" "@carol:h" "ban") none (state []) createPdu =
      .ok true ∧
    ¬ (reading [] "ban" rfl).BanLevels := by
  refine ⟨rfl, fun levels => ?_, rfl, fun levels => ?_⟩
  · exact absurd levels.above (by decide)
  · exact absurd levels.above (by decide)

end DefaultRoom

end ArcanaServer.StateRes
