import ArcanaServer.StateRes.RoomChecks

namespace ArcanaServer.StateRes

open Library ArcanaServer.Matrix RoomMemberContentFields RoomVersion

/-! The part of a state that the check of one event looks at. -/

def AgreeOn (keys : List TypeStateKey) (left right : FetchState) : Prop :=
  ∀ key ∈ keys, left key.1 key.2 = right key.1 key.2

def ReadsListed (ruma : Ruma) (roomVersion : RoomVersion) (event : Pdu)
    (currentThirdPartyInvite : Option Pdu) (createEvent : Pdu) : Prop :=
  ∀ authTypes, authTypesForEvent ruma event.kind event.sender event.stateKey
      event.content roomVersion = .ok authTypes →
    ∀ left right, AgreeOn authTypes left right →
      authCheck ruma roomVersion event currentThirdPartyInvite left
          createEvent =
        authCheck ruma roomVersion event currentThirdPartyInvite right
          createEvent

def listsJoinRules (membership : MembershipState) : Bool :=
  membership ∈ [MembershipState.join, .invite, .knock]

/-- The event passes the checks in front of the rules for memberships, as far
as they do not hang on the state. -/
structure EntersMembershipRules (ruma : Ruma) (roomVersion : RoomVersion)
    (event createEvent : Pdu) (membership : MembershipState) : Prop where
  isMember : event.kind = .roomMember
  created : ∃ content,
    RoomCreateContentFields.decode createEvent.content = some content ∧
    content.unsupportedVersion ruma = false ∧
    (roomVersion.roomIdsAsHashes = false → content.federate = false →
      serverName createEvent.sender = serverName event.sender)
  sameRoom : ∃ roomId, roomIdOrHash ruma createEvent = .ok roomId ∧
    event.roomId = some roomId
  claims : createEvent.eventId ∈ event.authEvents ↔
    roomVersion.roomIdsAsHashes = false
  target : ∃ stateKey, event.stateKey = some stateKey ∧
    ruma.validUserId stateKey = true
  membership : ∃ content,
    decode event.content = some content ∧
    content.membership.bind MembershipState.decode = some membership

namespace AgreeOn

variable {keys : List TypeStateKey} {left right : FetchState}

theorem read (agree : AgreeOn keys left right) {kind : EventType}
    {stateKey : StateKey} (listed : (kind, stateKey) ∈ keys) :
    left kind stateKey = right kind stateKey :=
  agree (kind, stateKey) listed

theorem bind_read (agree : AgreeOn keys left right) {kind : EventType}
    {user : Option UserId}
    (listed : ∀ name, user = some name → (kind, name) ∈ keys) :
    user.bind (left kind) = user.bind (right kind) := by
  cases user with
  | none => rfl
  | some name => exact agree.read (listed name rfl)

end AgreeOn

section

variable {ruma : Ruma} {roomVersion : RoomVersion} {event : Pdu}
  {stateKey : StateKey} {content : RoomMemberContentFields}
  {authTypes : List TypeStateKey} {membership : MembershipState}

theorem mem_memberAuthTypes
    (decoded : content.membership.bind MembershipState.decode =
      some membership) {key : TypeStateKey} :
    key ∈ memberAuthTypes ruma stateKey content authTypes ↔ key ∈ authTypes ∨
      (listsJoinRules membership = true ∧ (key = (.roomJoinRules, "") ∨
        ∃ user, content.joinAuthorisedViaUsersServer.bind ruma.decodeUserId =
          some user ∧ key = (.roomMember, user))) ∨
      key = (.roomMember, stateKey) ∨
      membership = .invite ∧ ∃ invite,
        content.thirdPartyInvite.bind ruma.thirdPartyInvite = some invite ∧
          key = (.roomThirdPartyInvite, invite.token) := by
  have joined : key ∈ pushKey (if membership ∈ [.join, .invite, .knock] then
        pushDecoded (pushKey authTypes (.roomJoinRules, ""))
          (content.joinAuthorisedViaUsersServer.bind ruma.decodeUserId)
          (fun user => (.roomMember, user))
      else authTypes) (.roomMember, stateKey) ↔
      key ∈ authTypes ∨
      (listsJoinRules membership = true ∧ (key = (.roomJoinRules, "") ∨
        ∃ user, content.joinAuthorisedViaUsersServer.bind ruma.decodeUserId =
          some user ∧ key = (.roomMember, user))) ∨
      key = (.roomMember, stateKey) := by
    rw [mem_pushKey]
    cases listed : listsJoinRules membership with
    | true =>
        rw [if_pos (by simpa [listsJoinRules] using listed), mem_pushDecoded,
          mem_pushKey]
        simp only [true_and, or_assoc]
    | false =>
        rw [if_neg (by simpa [listsJoinRules] using listed)]
        simp
  unfold memberAuthTypes
  rw [decoded]
  simp only
  split
  next invited =>
    rw [mem_pushDecoded, joined]
    simp only [invited, true_and, or_assoc]
  next other =>
    rw [joined]
    simp [other]

theorem base_mem_authTypes
    (result : authTypesForEvent ruma event.kind event.sender event.stateKey
      event.content roomVersion = .ok authTypes)
    (other : event.kind ≠ .roomCreate) {key : TypeStateKey}
    (base : key ∈ baseAuthTypes event.sender roomVersion) :
    key ∈ authTypes := by
  unfold authTypesForEvent at result
  rw [if_neg other] at result
  split at result
  · obtain ⟨content, _, final⟩ := bind_eq_ok result
    cases final
    cases decoded : content.membership.bind MembershipState.decode with
    | none => simpa [memberAuthTypes, decoded] using base
    | some membership => exact (mem_memberAuthTypes decoded).mpr (.inl base)
  · cases result
    exact base

theorem power_mem_base (sender : UserId) :
    (EventType.roomPowerLevels, "") ∈ baseAuthTypes sender roomVersion := by
  unfold baseAuthTypes
  split <;> simp

theorem sender_mem_base (sender : UserId) :
    (EventType.roomMember, sender) ∈ baseAuthTypes sender roomVersion := by
  unfold baseAuthTypes
  split <;> simp

theorem authTypes_of_member
    (result : authTypesForEvent ruma event.kind event.sender event.stateKey
      event.content roomVersion = .ok authTypes)
    (isMember : event.kind = .roomMember)
    (isState : event.stateKey = some stateKey)
    (decoded : decode event.content = some content) :
    authTypes = memberAuthTypes ruma stateKey content
      (baseAuthTypes event.sender roomVersion) := by
  rw [isMember, isState] at result
  simp only [authTypesForEvent, decoded, orSerde] at result
  cases result
  rfl

end

section

variable {ruma : Ruma} {roomVersion : RoomVersion} {event : Pdu}
  {currentThirdPartyInvite : Option Pdu} {createEvent : Pdu}
  {authTypes : List TypeStateKey} {left right : FetchState}

theorem checkRoomMember_agree
    (types : authTypesForEvent ruma event.kind event.sender event.stateKey
      event.content roomVersion = .ok authTypes)
    (agree : AgreeOn authTypes left right) (isMember : event.kind = .roomMember)
    (lists : ∀ stateKey content membership,
      event.stateKey = some stateKey → ruma.validUserId stateKey = true →
      decode event.content = some content →
      content.membership.bind MembershipState.decode = some membership →
      listsJoinRules membership = true) :
    checkRoomMember ruma roomVersion event currentThirdPartyInvite left
        createEvent =
      checkRoomMember ruma roomVersion event currentThirdPartyInvite right
        createEvent := by
  have notCreate : event.kind ≠ .roomCreate := by simp [isMember]
  have power := agree.read (base_mem_authTypes types notCreate
    (power_mem_base event.sender))
  have sender := agree.read (base_mem_authTypes types notCreate
    (sender_mem_base event.sender))
  unfold checkRoomMember
  cases isState : event.stateKey with
  | none => rfl
  | some stateKey =>
      refine bind_congr_ok (fun content result => ?_)
      have decoded := orSerde_eq_ok.mp result
      refine ite_congr rfl (fun _ => rfl) (fun isSome => ?_)
      refine ite_congr rfl (fun _ => rfl) (fun valid => ?_)
      obtain ⟨membership, found⟩ : ∃ membership,
          content.membership.bind MembershipState.decode =
            some membership :=
        Option.ne_none_iff_exists'.mp (fun missing =>
          isSome (Option.isNone_iff_eq_none.mpr missing))
      have listed := lists stateKey content membership isState
        (by simpa using valid) decoded found
      have same := authTypes_of_member types isMember isState decoded
      subst same
      have target := agree.read ((mem_memberAuthTypes found).mpr
        (.inr (.inr (.inl rfl))))
      have joinRules := agree.read ((mem_memberAuthTypes found).mpr
        (.inr (.inl ⟨listed, .inl rfl⟩)))
      have joinAuth := agree.bind_read (fun user authorises =>
        (mem_memberAuthTypes found).mpr
          (.inr (.inl ⟨listed, .inr ⟨user, authorises, rfl⟩⟩)))
      simp only [membershipChange, power, sender, target, joinRules, joinAuth]

theorem checkJoinedSender_agree {createContent : RoomCreateContentFields}
    {expectedRoomId : RoomId}
    (power : left .roomPowerLevels "" = right .roomPowerLevels "")
    (sender : left .roomMember event.sender = right .roomMember event.sender) :
    checkJoinedSender ruma roomVersion createContent expectedRoomId event left
        createEvent =
      checkJoinedSender ruma roomVersion createContent expectedRoomId event
        right createEvent := by
  unfold checkJoinedSender
  rw [power, sender]

theorem authCheck_agree
    (types : authTypesForEvent ruma event.kind event.sender event.stateKey
      event.content roomVersion = .ok authTypes)
    (agree : AgreeOn authTypes left right)
    (lists : ∀ membership, EntersMembershipRules ruma roomVersion event
      createEvent membership → listsJoinRules membership = true) :
    authCheck ruma roomVersion event currentThirdPartyInvite left createEvent =
      authCheck ruma roomVersion event currentThirdPartyInvite right
        createEvent := by
  unfold authCheck
  refine ite_congr rfl (fun _ => rfl) (fun notCreate => ?_)
  have power := agree.read (base_mem_authTypes types notCreate
    (power_mem_base event.sender))
  have sender := agree.read (base_mem_authTypes types notCreate
    (sender_mem_base event.sender))
  rw [power]
  refine bind_congr_ok (fun createContent created => ?_)
  refine ite_congr rfl (fun _ => rfl) (fun supported => ?_)
  refine bind_congr_ok (fun expectedRoomId expected => ?_)
  refine bind_congr_ok (fun roomId hasRoom => ?_)
  refine ite_congr rfl (fun _ => rfl) (fun sameRoom => ?_)
  refine ite_congr rfl (fun _ => rfl) (fun claimed => ?_)
  refine ite_congr rfl (fun _ => rfl) (fun unclaimed => ?_)
  refine bind_congr (fun elsewhere => ?_)
  refine ite_congr rfl (fun _ => rfl) (fun _ => ?_)
  unfold checkByKind
  refine ite_congr rfl (fun _ => rfl) (fun federates => ?_)
  refine ite_congr rfl (fun _ => rfl) (fun _ => ?_)
  refine ite_congr rfl (fun isMember => ?_)
    (fun _ => checkJoinedSender_agree power sender)
  refine checkRoomMember_agree types agree isMember ?_
  intro stateKey content membership isState valid decoded found
  have room : event.roomId = some expectedRoomId := by
    rw [expectSome_eq_ok.mp hasRoom, not_not.mp sameRoom]
  exact lists membership {
    isMember
    created := ⟨createContent, orSerde_eq_ok.mp created,
      by simpa using supported,
      fun legacy closed => by simpa [legacy, closed] using federates⟩
    sameRoom := ⟨expectedRoomId, expected, room⟩
    claims := by
      cases hashes : roomVersion.roomIdsAsHashes with
      | true => simpa [hashes] using claimed
      | false => simpa [hashes] using unclaimed
    target := ⟨stateKey, isState, valid⟩
    membership := ⟨content, decoded, found⟩ }

end

def onlyJoinRules (joinRules : Pdu) : FetchState :=
  fun kind stateKey =>
    if (kind, stateKey) = (.roomJoinRules, "") then some joinRules else none

theorem getMembership_decode {json : Json}
    {content : RoomMemberContentFields} {membership : MembershipState}
    (decoded : decode json = some content)
    (found : content.membership.bind MembershipState.decode = some membership) :
    GetMembership.decode json = some { membership } := by
  obtain ⟨fields, isObject, final⟩ := Option.bind_eq_some_iff.mp decoded
  cases final
  obtain ⟨value, raw, read⟩ := Option.bind_eq_some_iff.mp found
  have held : fields.lookup "membership" = some value := by
    unfold rawField at raw
    split at raw
    · cases raw
    · cases raw
    next held =>
      cases raw
      exact held
  simp [GetMembership.decode, isObject, held, read]

section

variable {ruma : Ruma} {roomVersion : RoomVersion} {event : Pdu}
  {currentThirdPartyInvite : Option Pdu} {createEvent : Pdu}
  {authTypes : List TypeStateKey} {membership : MembershipState}

variable (currentThirdPartyInvite) in
theorem authCheck_of_enters
    (enters : EntersMembershipRules ruma roomVersion event createEvent
      membership) (fetchState : FetchState)
    (noPower : fetchState .roomPowerLevels "" = none) :
    ∃ stateKey content, event.stateKey = some stateKey ∧
      decode event.content = some content ∧
      content.membership.bind MembershipState.decode = some membership ∧
      authCheck ruma roomVersion event currentThirdPartyInvite fetchState
          createEvent =
        validMembershipChange ruma roomVersion (membershipChange ruma event
          currentThirdPartyInvite fetchState createEvent stateKey content) := by
  obtain ⟨createContent, created, supported, federates⟩ := enters.created
  obtain ⟨roomId, expected, hasRoom⟩ := enters.sameRoom
  obtain ⟨stateKey, isState, valid⟩ := enters.target
  obtain ⟨content, decoded, found⟩ := enters.membership
  have local_ : ¬ (!roomVersion.roomIdsAsHashes && !createContent.federate &&
      serverName createEvent.sender != serverName event.sender) = true := by
    cases hashes : roomVersion.roomIdsAsHashes with
    | true => simp
    | false =>
        cases closed : createContent.federate with
        | true => simp
        | false => simp [federates hashes closed]
  have claims : ¬ (roomVersion.roomIdsAsHashes &&
      event.authEvents.contains createEvent.eventId) = true := by
    cases hashes : roomVersion.roomIdsAsHashes with
    | true => simpa [hashes] using enters.claims
    | false => simp
  have unclaimed : ¬ (!roomVersion.roomIdsAsHashes &&
      !event.authEvents.contains createEvent.eventId) = true := by
    cases hashes : roomVersion.roomIdsAsHashes with
    | true => simp
    | false => simpa [hashes] using enters.claims
  refine ⟨stateKey, content, isState, decoded, found, ?_⟩
  simp only [authCheck, enters.isMember, reduceCtorEq, if_false, created,
    orSerde, supported, expected, hasRoom, expectSome, noPower,
    powerLevelsElsewhere, ne_eq, not_true_eq_false, bind, Except.bind, claims,
    unclaimed, Bool.false_eq_true, checkByKind, local_, and_false, if_true,
    checkRoomMember, isState, decoded, found, Option.isNone_some, valid,
    Bool.not_true, membershipChange]

theorem isCreator_ne_serde (creators : List UserId) (userId : UserId)
    (havePls : Bool) :
    isCreator ruma roomVersion creators createEvent userId havePls ≠
      .error (.error .serdeJson) := by
  have some_ne : ∀ (message : String) {α : Type} (value : Option α),
      expectSome message value ≠ .error (.error .serdeJson) := by
    intro message α value
    cases value <;> simp [expectSome]
  unfold isCreator contentCreator
  split
  · simp
  · split
    · simp
    · split
      · refine bind_ne_error ?_ (fun creator => by simp [pure, Except.pure])
        exact bind_ne_error (some_ne _ _) (fun content => some_ne _ _)
      · simp

theorem joinAuthIsValid_ne_serde (creators : List UserId)
    {change : MembershipChange} (noPower : change.powerLevelsEvent = none) :
    joinAuthIsValid ruma roomVersion creators change ≠
      .error (.error .serdeJson) := by
  unfold joinAuthIsValid
  cases change.userForJoinAuth with
  | none => simp
  | some user =>
      simp only [noPower, joinAuthLevels, ok_bind]
      exact bind_ne_error (isCreator_ne_serde creators user _)
        (fun creator => by simp [pure, Except.pure])

theorem validMembershipChange_serde_iff {change : MembershipChange}
    {content : RoomMemberContentFields}
    (created : (RoomCreateContentFields.decode
      change.createRoom.content).isSome = true)
    (decoded : decode change.currentEvent.content =
      some content)
    (found : content.membership.bind MembershipState.decode = some membership)
    (noTarget : change.targetUserMembershipEvent = none)
    (noSender : change.senderMembershipEvent = none)
    (noPower : change.powerLevelsEvent = none) :
    validMembershipChange ruma roomVersion change = .error (.error .serdeJson) ↔
      ∃ joinRules, change.joinRulesEvent = some joinRules ∧
        ruma.roomJoinRules joinRules.content = none := by
  obtain ⟨createContent, created⟩ := Option.isSome_iff_exists.mp created
  have target := getMembership_decode decoded found
  have readable : joinRulesIn ruma change.joinRulesEvent ≠
      .error (.error .serdeJson) →
      validMembershipChange ruma roomVersion change ≠
        .error (.error .serdeJson) := by
    intro readable
    simp only [validMembershipChange, membershipFacts, created, target,
      decoded, orSerde, noTarget, noSender, noPower, membershipIn,
      powerLevelsIn, ok_bind]
    refine bind_ne_error ?_ (fun facts => by simp [pure, Except.pure])
    refine bind_ne_error readable (fun joinRules => ?_)
    refine bind_ne_error (joinAuthIsValid_ne_serde _ noPower)
      (fun joinAuth => ?_)
    refine bind_ne_error (isCreator_ne_serde _ _ _) (fun sender => ?_)
    exact bind_ne_error (isCreator_ne_serde _ _ _)
      (fun target => by simp [pure, Except.pure])
  cases row : change.joinRulesEvent with
  | none =>
      refine iff_of_false (readable ?_) (by simp)
      simp [row, joinRulesIn]
  | some joinRules =>
      cases read : ruma.roomJoinRules joinRules.content with
      | none =>
          refine iff_of_true ?_ ⟨joinRules, rfl, read⟩
          simp [validMembershipChange, membershipFacts, created, target,
            decoded, orSerde, noTarget, noSender, noPower, membershipIn,
            powerLevelsIn, row, joinRulesIn, read, bind, Except.bind]
      | some rule =>
          refine iff_of_false (readable ?_) ?_
          · simp [row, joinRulesIn, read, orSerde]
          · rintro ⟨other, same, unread⟩
            cases same
            rw [read] at unread
            cases unread

theorem authCheck_onlyJoinRules
    (enters : EntersMembershipRules ruma roomVersion event createEvent
      membership) (joinRules : Pdu)
    (unread : ruma.roomJoinRules joinRules.content = none) :
    authCheck ruma roomVersion event currentThirdPartyInvite
        (fun _ _ => none) createEvent ≠
      authCheck ruma roomVersion event currentThirdPartyInvite
        (onlyJoinRules joinRules) createEvent := by
  obtain ⟨createContent, created, _⟩ := enters.created
  have isSome : (RoomCreateContentFields.decode
      createEvent.content).isSome = true := by rw [created]; rfl
  obtain ⟨stateKey, content, _, decoded, found, empty⟩ :=
    authCheck_of_enters currentThirdPartyInvite enters (fun _ _ => none) rfl
  obtain ⟨otherKey, otherContent, _, otherDecoded, otherFound, only⟩ :=
    authCheck_of_enters currentThirdPartyInvite enters
      (onlyJoinRules joinRules) rfl
  have failed : authCheck ruma roomVersion event currentThirdPartyInvite
      (onlyJoinRules joinRules) createEvent = .error (.error .serdeJson) := by
    rw [only]
    exact (validMembershipChange_serde_iff isSome otherDecoded otherFound rfl
      rfl rfl).mpr ⟨joinRules, rfl, unread⟩
  have passed : authCheck ruma roomVersion event currentThirdPartyInvite
      (fun _ _ => none) createEvent ≠ .error (.error .serdeJson) := by
    rw [empty]
    intro serde
    obtain ⟨_, row, _⟩ := (validMembershipChange_serde_iff isSome decoded
      found rfl rfl rfl).mp serde
    cases row
  exact fun same => passed (same.trans failed)

theorem joinRules_not_listed
    (types : authTypesForEvent ruma event.kind event.sender event.stateKey
      event.content roomVersion = .ok authTypes)
    (enters : EntersMembershipRules ruma roomVersion event createEvent
      membership) (unlisted : listsJoinRules membership = false) :
    (EventType.roomJoinRules, "") ∉ authTypes := by
  obtain ⟨stateKey, isState, _⟩ := enters.target
  obtain ⟨content, decoded, found⟩ := enters.membership
  rw [authTypes_of_member types enters.isMember isState decoded,
    mem_memberAuthTypes found, unlisted]
  unfold baseAuthTypes
  split <;> simp

end

/-- Where the decoder of the join rules refuses some content, the check of an
event hangs on the listed keys alone if and only if the event does not get to
the rules for memberships with one for which the join rules are not listed. -/
theorem readsListed_iff {ruma : Ruma} {roomVersion : RoomVersion}
    {event createEvent : Pdu} {currentThirdPartyInvite : Option Pdu}
    (refuses : ∃ content, ruma.roomJoinRules content = none) :
    ReadsListed ruma roomVersion event currentThirdPartyInvite createEvent ↔
      ∀ membership, EntersMembershipRules ruma roomVersion event createEvent
        membership → listsJoinRules membership = true := by
  constructor
  · intro reads membership enters
    by_contra unlisted
    obtain ⟨content, unread⟩ := refuses
    obtain ⟨stateKey, isState, _⟩ := enters.target
    obtain ⟨fields, decoded, _⟩ := enters.membership
    have types : authTypesForEvent ruma event.kind event.sender event.stateKey
        event.content roomVersion = .ok (memberAuthTypes ruma stateKey fields
          (baseAuthTypes event.sender roomVersion)) := by
      rw [enters.isMember, isState]
      simp [authTypesForEvent, decoded, orSerde, ok_bind, pure, Except.pure]
    refine authCheck_onlyJoinRules enters { event with content } unread
      (reads _ types _ _ ?_)
    intro key listed
    have other : key ≠ (.roomJoinRules, "") := by
      rintro rfl
      exact joinRules_not_listed types enters (by simpa using unlisted) listed
    exact (if_neg other).symm
  · intro lists authTypes types left right agree
    exact authCheck_agree types agree lists

namespace AliceRoom

def createPdu : Pdu :=
  { Pdu.message "$create" "!room:h" "@alice:h" with
    kind := .roomCreate, stateKey := some "" }

def memberPdu (eventId : EventId) (membership : String) : Pdu :=
  { Pdu.message eventId "!room:h" "@alice:h" with
    originServerTs := 1, kind := .roomMember,
    content := .obj [("membership", .str membership)],
    stateKey := some "@alice:h", prevEvents := ["$create"],
    authEvents := ["$create"] }

def joinRulesPdu : Pdu :=
  { Pdu.message "$rules" "!room:h" "@alice:h" with
    originServerTs := 2, kind := .roomJoinRules,
    content := .obj [("join_rule", .int 5)], stateKey := some "",
    prevEvents := ["$join"], authEvents := ["$create", "$join"] }

def state (joinRules : Option Pdu) : FetchState
  | .roomMember, "@alice:h" => some (memberPdu "$join" "join")
  | .roomJoinRules, "" => joinRules
  | _, _ => none

theorem joins_readsListed :
    (∃ content, plainRuma.roomJoinRules content = none) ∧
      ReadsListed plainRuma v11 (memberPdu "$join" "join") none
        createPdu := by
  have refuses : ∃ content, plainRuma.roomJoinRules content = none :=
    ⟨.null, rfl⟩
  refine ⟨refuses, (readsListed_iff refuses).mpr ?_⟩
  intro membership enters
  obtain ⟨content, decoded, found⟩ := enters.membership
  cases decoded
  cases found
  rfl

/-- She cannot leave once the join rules are a number, and those who check her
event against the listed state let her. -/
theorem leave_reads_joinRules :
    authTypesForEvent plainRuma .roomMember "@alice:h" (some "@alice:h")
        (memberPdu "$leave" "leave").content v11 =
      .ok [(.roomPowerLevels, ""), (.roomMember, "@alice:h"),
        (.roomCreate, "")] ∧
    AgreeOn [(.roomPowerLevels, ""), (.roomMember, "@alice:h"),
      (.roomCreate, "")] (state none) (state (some joinRulesPdu)) ∧
    authCheck plainRuma v11 (memberPdu "$leave" "leave") none
      (state none) createPdu = .ok true ∧
    authCheck plainRuma v11 (memberPdu "$leave" "leave") none
      (state (some joinRulesPdu)) createPdu = .error (.error .serdeJson) ∧
    ¬ ∀ roomVersion event currentThirdPartyInvite createEvent,
      ReadsListed plainRuma roomVersion event currentThirdPartyInvite
        createEvent := by
  have agree : AgreeOn [(.roomPowerLevels, ""), (.roomMember, "@alice:h"),
      (.roomCreate, "")] (state none) (state (some joinRulesPdu)) := by
    intro key listed
    simp only [List.mem_cons, List.not_mem_nil, or_false] at listed
    obtain rfl | rfl | rfl := listed <;> rfl
  have left : authCheck plainRuma v11
      (memberPdu "$leave" "leave") none (state none) createPdu =
        .ok true := rfl
  have right : authCheck plainRuma v11
      (memberPdu "$leave" "leave") none (state (some joinRulesPdu))
      createPdu = .error (.error .serdeJson) := rfl
  refine ⟨rfl, agree, left, right, fun reads => ?_⟩
  have same := reads v11 (memberPdu "$leave" "leave") none
    createPdu _ rfl _ _ agree
  rw [left, right] at same
  cases same

end AliceRoom

end ArcanaServer.StateRes
