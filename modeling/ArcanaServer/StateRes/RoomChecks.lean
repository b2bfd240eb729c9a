import ArcanaServer.StateRes.CreateEvent

namespace ArcanaServer.StateRes

open Library ArcanaServer.Matrix MembershipState

/-! The checks that every event but a create event has to pass. -/

/-- What `auth_check` asks of an event and of the state before it looks at the
kind of the event. -/
structure PassesRoomChecks (ruma : Ruma) (roomVersion : RoomVersion)
    (event : Pdu) (fetchState : FetchState) (createEvent : Pdu)
    (createContent : RoomCreateContentFields) (roomId : RoomId) : Prop where
  created :
    RoomCreateContentFields.decode createEvent.content = some createContent
  supported : createContent.unsupportedVersion ruma = false
  expected : roomIdOrHash ruma createEvent = .ok roomId
  sameRoom : event.roomId = some roomId
  claims : event.authEvents.contains createEvent.eventId =
    !roomVersion.roomIdsAsHashes
  powerLevels : ∀ powerLevels, fetchState .roomPowerLevels "" =
    some powerLevels → powerLevels.roomId = some roomId
  federates : roomVersion.roomIdsAsHashes = false →
    createContent.federate = false →
    serverName createEvent.sender = serverName event.sender

theorem orSerde_eq_ok {α : Type} {decoded : Option α} {value : α} :
    orSerde decoded = .ok value ↔ decoded = some value := by
  cases decoded <;> simp [orSerde]

theorem expectSome_eq_ok {α : Type} {message : String} {option : Option α}
    {value : α} : expectSome message option = .ok value ↔
      option = some value := by
  cases option <;> simp [expectSome]

section

variable {ruma : Ruma} {roomVersion : RoomVersion} {event : Pdu}
  {currentThirdPartyInvite : Option Pdu} {fetchState : FetchState}
  {createEvent : Pdu} {createContent : RoomCreateContentFields}
  {roomId : RoomId}

theorem powerLevelsElsewhere_eq_false {powerLevelsEvent : Option Pdu} :
    powerLevelsElsewhere roomId powerLevelsEvent = .ok false ↔
      ∀ powerLevels, powerLevelsEvent = some powerLevels →
        powerLevels.roomId = some roomId := by
  cases powerLevelsEvent with
  | none => simp [powerLevelsElsewhere]
  | some powerLevels =>
      cases held : powerLevels.roomId with
      | none => simp [powerLevelsElsewhere, held, expectSome, bind, Except.bind]
      | some other =>
          simp [powerLevelsElsewhere, held, expectSome, bind, Except.bind,
            pure, Except.pure]

theorem authCheck_of_passes (notCreate : event.kind ≠ .roomCreate)
    (passes : PassesRoomChecks ruma roomVersion event fetchState createEvent
      createContent roomId) :
    authCheck ruma roomVersion event currentThirdPartyInvite fetchState
        createEvent =
      checkByKind ruma roomVersion createContent roomId event
        currentThirdPartyInvite fetchState createEvent := by
  have elsewhere := powerLevelsElsewhere_eq_false.mpr passes.powerLevels
  have claims := passes.claims
  simp only [authCheck, notCreate, if_false, passes.created, orSerde,
    passes.supported, passes.expected, passes.sameRoom, expectSome, ok_bind,
    elsewhere, ne_eq, not_true_eq_false, claims, Bool.false_eq_true]
  cases roomVersion.roomIdsAsHashes <;> simp

theorem not_refused_of_passes
    (passes : PassesRoomChecks ruma roomVersion event fetchState createEvent
      createContent roomId) :
    (!roomVersion.roomIdsAsHashes && !createContent.federate &&
      serverName createEvent.sender != serverName event.sender) = false := by
  cases hashes : roomVersion.roomIdsAsHashes with
  | true => simp
  | false =>
      cases closed : createContent.federate with
      | true => simp
      | false => simp [passes.federates hashes closed]

theorem authCheck_member (isMember : event.kind = .roomMember)
    (passes : PassesRoomChecks ruma roomVersion event fetchState createEvent
      createContent roomId) :
    authCheck ruma roomVersion event currentThirdPartyInvite fetchState
        createEvent =
      checkRoomMember ruma roomVersion event currentThirdPartyInvite
        fetchState createEvent := by
  rw [authCheck_of_passes (by simp [isMember]) passes]
  simp [checkByKind, not_refused_of_passes passes, isMember]

theorem authCheck_joined (notCreate : event.kind ≠ .roomCreate)
    (notMember : event.kind ≠ .roomMember)
    (notAliases : event.kind ≠ .roomAliases)
    (passes : PassesRoomChecks ruma roomVersion event fetchState createEvent
      createContent roomId) :
    authCheck ruma roomVersion event currentThirdPartyInvite fetchState
        createEvent =
      checkJoinedSender ruma roomVersion createContent roomId event fetchState
        createEvent := by
  rw [authCheck_of_passes notCreate passes]
  simp [checkByKind, not_refused_of_passes passes, notMember, notAliases]

/-- The inputs for which the checks on the room panic. -/
inductive RoomCheckPanic (ruma : Ruma) (roomVersion : RoomVersion)
    (event : Pdu) (fetchState : FetchState) (createEvent : Pdu) : Prop
  | createEvent (failure : Failure)
      (failed : roomIdOrHash ruma createEvent = .error failure)
  | event (absent : event.roomId = none)
  | powerLevels (roomId : RoomId) (powerLevels : Pdu)
      (expected : roomIdOrHash ruma createEvent = .ok roomId)
      (sameRoom : event.roomId = some roomId)
      (claims : event.authEvents.contains createEvent.eventId =
        !roomVersion.roomIdsAsHashes)
      (found : fetchState .roomPowerLevels "" = some powerLevels)
      (absent : powerLevels.roomId = none)

/-- An event that does not pass them is rejected, or cannot be read, or leads
to a panic. -/
theorem passes_or_stops {outcome : Outcome Bool}
    (notCreate : event.kind ≠ .roomCreate)
    (result : authCheck ruma roomVersion event currentThirdPartyInvite
      fetchState createEvent = outcome) :
    (∃ createContent roomId, PassesRoomChecks ruma roomVersion event fetchState
      createEvent createContent roomId) ∨
    outcome = .ok false ∨
    ∃ failure, outcome = .error failure ∧ ((∃ error, failure = .error error) ∨
        RoomCheckPanic ruma roomVersion event fetchState createEvent) := by
  unfold authCheck at result
  rw [if_neg notCreate] at result
  rcases bind_cases result with ⟨failure, failed, rfl⟩ |
    ⟨createContent, created, result⟩
  · cases decoded : RoomCreateContentFields.decode createEvent.content with
    | none =>
        rw [decoded] at failed
        cases failed
        exact .inr (.inr ⟨_, rfl, .inl ⟨_, rfl⟩⟩)
    | some content =>
        rw [decoded] at failed
        cases failed
  split at result
  · exact .inr (.inl result.symm)
  next supported =>
  rcases bind_cases result with ⟨failure, failed, rfl⟩ |
    ⟨expectedRoomId, expected, result⟩
  · exact .inr (.inr ⟨failure, rfl, .inr (.createEvent failure failed)⟩)
  rcases bind_cases result with ⟨failure, failed, rfl⟩ |
    ⟨roomId, hasRoom, result⟩
  · refine .inr (.inr ⟨failure, rfl, .inr (.event ?_)⟩)
    cases held : event.roomId with
    | none => rfl
    | some roomId =>
        rw [held] at failed
        cases failed
  rw [expectSome_eq_ok] at hasRoom
  dsimp only at result
  split at result
  · exact .inr (.inl result.symm)
  next sameRoom =>
  split at result
  · exact .inr (.inl result.symm)
  next claimed =>
  split at result
  · exact .inr (.inl result.symm)
  next unclaimed =>
  have same : roomId = expectedRoomId := by simpa using sameRoom
  subst same
  have claims : event.authEvents.contains createEvent.eventId =
      !roomVersion.roomIdsAsHashes := by
    cases hashes : roomVersion.roomIdsAsHashes with
    | true => simpa [hashes] using claimed
    | false => simpa [hashes] using unclaimed
  rcases bind_cases result with ⟨failure, failed, rfl⟩ |
    ⟨elsewhere, read, result⟩
  · refine .inr (.inr ⟨failure, rfl, .inr ?_⟩)
    cases found : fetchState .roomPowerLevels "" with
    | none =>
        rw [found] at failed
        cases failed
    | some powerLevels =>
        cases held : powerLevels.roomId with
        | none =>
            exact .powerLevels roomId powerLevels expected hasRoom claims
              found held
        | some other =>
            rw [found] at failed
            simp only [powerLevelsElsewhere, held, expectSome] at failed
            cases failed
  split at result
  · exact .inr (.inl result.symm)
  next here =>
  have false_ : elsewhere = false := by simpa using here
  subst false_
  unfold checkByKind at result
  split at result
  · exact .inr (.inl result.symm)
  next local_ =>
  refine .inl ⟨createContent, roomId, orSerde_eq_ok.mp created,
    by simpa using supported, expected, hasRoom, claims,
    powerLevelsElsewhere_eq_false.mp read, fun hashes closed => ?_⟩
  simpa [hashes, closed] using local_

theorem passes_of_accepted (notCreate : event.kind ≠ .roomCreate)
    (accepted : authCheck ruma roomVersion event currentThirdPartyInvite
      fetchState createEvent = .ok true) :
    ∃ createContent roomId, PassesRoomChecks ruma roomVersion event fetchState
      createEvent createContent roomId := by
  rcases passes_or_stops notCreate accepted with passes | rejected |
    ⟨failure, failed, _⟩
  · exact passes
  · cases rejected
  · cases failed

end

def EveryEntry (holds : TypeStateKey → Pdu → Prop) (authState : AuthState) :
    Prop :=
  ∀ key event, authState.lookup key = some event → holds key event

section

variable {ruma : Ruma} {store : EventStore} {roomVersion : RoomVersion}
  {holds : TypeStateKey → Pdu → Prop}

theorem everyEntry_empty : EveryEntry holds ∅ := by
  intro key event row
  rw [AList.lookup_empty] at row
  cases row

variable {authState : AuthState}

theorem EveryEntry.insert {key : TypeStateKey} {event : Pdu}
    (every : EveryEntry holds authState) (added : holds key event) :
    EveryEntry holds (authState.insert key event) := by
  intro other found row
  rcases Decidable.em (other = key) with same | different
  · subst same
    rw [AList.lookup_insert] at row
    cases row
    exact added
  · rw [AList.lookup_insert_ne different] at row
    exact every other found row

theorem EveryEntry.foldlM_addCited {ids : List EventId} {final : AuthState}
    (result : ids.foldlM (addCited store.fetch) authState = .ok final)
    (every : EveryEntry holds authState)
    (cited : ∀ id ∈ ids, ∀ event stateKey, store.fetch id = some event →
      event.stateKey = some stateKey → holds (event.kind, stateKey) event) :
    EveryEntry holds final := by
  induction ids generalizing authState with
  | nil =>
      cases result
      exact every
  | cons id rest ih =>
      rw [List.foldlM_cons] at result
      obtain ⟨next, step, later⟩ := bind_eq_ok result
      refine ih later ?_ (fun other member =>
        cited other (List.mem_cons_of_mem _ member))
      unfold addCited at step
      cases fetched : store.fetch id with
      | none =>
          rw [fetched] at step
          cases step
          exact every
      | some event =>
          rw [fetched] at step
          obtain ⟨stateKey, required, inserted⟩ := bind_eq_ok step
          cases inserted
          exact every.insert (cited id (by simp) event stateKey fetched
            (requireStateKey_eq_ok required))

theorem EveryEntry.foldl_addResolved {state : StateMap}
    {keys : List TypeStateKey} (every : EveryEntry holds authState)
    (resolved : ∀ key ∈ keys, ∀ id event, state key = some id →
      store.fetch id = some event → holds key event) :
    EveryEntry holds
      (keys.foldl (addResolved store store.fetch state) authState) := by
  induction keys generalizing authState with
  | nil => exact every
  | cons key rest ih =>
      refine ih ?_ (fun other member =>
        resolved other (List.mem_cons_of_mem _ member))
      unfold addResolved
      cases row : state key with
      | none => exact every
      | some id =>
          simp only [Option.or_self]
          cases fetched : store.fetch id with
          | none => exact every
          | some event =>
              exact every.insert (resolved key (by simp) id event row fetched)

/-- An entry is the create event, a cited event or an event of the resolved
state. -/
theorem authStateFor_every {state : StateMap} {event : Pdu}
    {stateKey : StateKey}
    (result : authStateFor ruma store roomVersion store.fetch state event
      stateKey = .ok authState)
    (created : ∀ start, createAuthState ruma store roomVersion event =
      .ok start → EveryEntry holds start)
    (cited : ∀ id ∈ event.authEvents, ∀ other stateKey,
      store.fetch id = some other → other.stateKey = some stateKey →
      holds (other.kind, stateKey) other)
    (resolved : ∀ authTypes, authTypesForEvent ruma event.kind event.sender
      (some stateKey) event.content roomVersion = .ok authTypes →
      ∀ key ∈ authTypes, ∀ id other, state key = some id →
        store.fetch id = some other → holds key other) :
    EveryEntry holds authState := by
  obtain ⟨authTypes, types, afterTypes⟩ := bind_eq_ok result
  obtain ⟨start, begun, afterStart⟩ := bind_eq_ok afterTypes
  obtain ⟨withCited, cites, final⟩ := bind_eq_ok afterStart
  cases final
  exact ((created start begun).foldlM_addCited cites cited).foldl_addResolved
    (resolved authTypes types)

theorem createAuthState_eq_ok {event : Pdu} {start : AuthState}
    (result : createAuthState ruma store roomVersion event = .ok start) :
    start = ∅ ∨ roomVersion.roomIdsAsHashes = true ∧ ∃ created : Pdu,
      start = AList.insert (created.kind, "") created ∅ := by
  unfold createAuthState at result
  split at result
  next hashes =>
    obtain ⟨roomId, _, rest⟩ := bind_eq_ok result
    simp only at rest
    split at rest
    · split at rest
      next created _ =>
        cases rest
        exact .inr ⟨hashes, created, rfl⟩
      · cases rest
    · cases rest
  · cases result
    exact .inl rfl

end

def thirdPartyInviteOf (ruma : Ruma) (event : Pdu) :
    Option ThirdPartyInvite :=
  if event.kind = .roomMember then do
    let content ← RoomMemberContentFields.decode event.content
    if content.membership.bind decode = some .invite then
      content.thirdPartyInvite.bind ruma.thirdPartyInvite
    else none
  else none

section

variable {ruma : Ruma} {store : EventStore} {roomVersion : RoomVersion}

variable {authTypes : List TypeStateKey}

theorem mem_pushDecoded {α : Type} {decoded : Option α}
    {added : α → TypeStateKey} {key : TypeStateKey} :
    key ∈ pushDecoded authTypes decoded added ↔
      key ∈ authTypes ∨ ∃ value, decoded = some value ∧ key = added value := by
  cases decoded with
  | none => simp [pushDecoded]
  | some value => simp [pushDecoded, mem_pushKey]

theorem thirdParty_mem_memberAuthTypes {stateKey : StateKey}
    {content : RoomMemberContentFields} {key : TypeStateKey}
    (kind : key.1 = .roomThirdPartyInvite)
    (member : key ∈ memberAuthTypes ruma stateKey content authTypes) :
    key ∈ authTypes ∨
      content.membership.bind decode = some .invite ∧
        ∃ invite, content.thirdPartyInvite.bind ruma.thirdPartyInvite =
          some invite ∧ key = (.roomThirdPartyInvite, invite.token) := by
  have other : ∀ {name : EventType} {value : StateKey},
      name ≠ .roomThirdPartyInvite → key ≠ (name, value) := by
    rintro name value different rfl
    exact different kind
  have joined : ∀ {membership : MembershipState},
      key ∈ pushKey (if membership ∈ [.join, .invite, .knock] then
          pushDecoded (pushKey authTypes (.roomJoinRules, ""))
            (content.joinAuthorisedViaUsersServer.bind ruma.decodeUserId)
            (fun user => (.roomMember, user))
        else authTypes) (.roomMember, stateKey) → key ∈ authTypes := by
    intro membership listed
    have before := (mem_pushKey.mp listed).resolve_right (other (by simp))
    split at before
    · rcases mem_pushDecoded.mp before with earlier | pushed
      · exact (mem_pushKey.mp earlier).resolve_right (other (by simp))
      · obtain ⟨user, _, same⟩ := pushed
        exact absurd same (other (by simp))
    · exact before
  unfold memberAuthTypes at member
  cases decoded : content.membership.bind decode with
  | none =>
      rw [decoded] at member
      exact .inl member
  | some membership =>
      rw [decoded] at member
      simp only at member
      split at member
      next invited =>
        rcases mem_pushDecoded.mp member with earlier | pushed
        · exact .inl (joined earlier)
        · obtain ⟨invite, found, same⟩ := pushed
          exact .inr ⟨by rw [invited], invite, found, same⟩
      · exact .inl (joined member)

theorem thirdParty_mem_authTypes {event : Pdu} {stateKey : StateKey}
    (result : authTypesForEvent ruma event.kind event.sender (some stateKey)
      event.content roomVersion = .ok authTypes) {key : TypeStateKey}
    (kind : key.1 = .roomThirdPartyInvite) (member : key ∈ authTypes) :
    ∃ invite, thirdPartyInviteOf ruma event = some invite ∧
      key = (.roomThirdPartyInvite, invite.token) := by
  have base : key ∉ baseAuthTypes event.sender roomVersion := by
    obtain ⟨name, value⟩ := key
    subst kind
    unfold baseAuthTypes
    split <;> simp
  unfold authTypesForEvent at result
  split at result
  · cases result
    cases member
  · split at result
    next stateKey isMember _ =>
      obtain ⟨content, decoded, final⟩ := bind_eq_ok result
      cases final
      obtain ⟨invited, invite, found, same⟩ :=
        (thirdParty_mem_memberAuthTypes kind member).resolve_left base
      refine ⟨invite, ?_, same⟩
      have read := orSerde_eq_ok.mp decoded
      simp [thirdPartyInviteOf, isMember, read, invited, found]
    · cases result
      exact absurd member base

theorem membership_eq {json : Json} {target : GetMembership}
    {content : RoomMemberContentFields}
    (read : GetMembership.decode json = some target)
    (fields : RoomMemberContentFields.decode json = some content) :
    content.membership.bind decode =
      some target.membership := by
  obtain ⟨object, isObject, rest⟩ := Option.bind_eq_some_iff.mp read
  obtain ⟨value, found, rest⟩ := Option.bind_eq_some_iff.mp rest
  obtain ⟨membership, decoded, final⟩ := Option.bind_eq_some_iff.mp rest
  cases final
  obtain ⟨same, isSame, final⟩ := Option.bind_eq_some_iff.mp fields
  rw [isObject] at isSame
  cases isSame
  cases final
  cases value with
  | null => cases decoded
  | _ => simp [rawField, found, decoded]

theorem membershipFacts_eq_ok {change : MembershipChange}
    {facts : MembershipFacts}
    (result : membershipFacts ruma roomVersion change = .ok facts) :
    ∃ content, RoomMemberContentFields.decode change.currentEvent.content =
        some content ∧
      content.membership.bind decode =
        some facts.targetMembership ∧
      facts.thirdPartyInvite =
        content.thirdPartyInvite.bind ruma.thirdPartyInvite := by
  obtain ⟨_, _, rest⟩ := bind_eq_ok result
  obtain ⟨target, targetRead, rest⟩ := bind_eq_ok rest
  obtain ⟨content, contentRead, rest⟩ := bind_eq_ok rest
  obtain ⟨_, _, rest⟩ := bind_eq_ok rest
  obtain ⟨_, _, rest⟩ := bind_eq_ok rest
  obtain ⟨_, _, rest⟩ := bind_eq_ok rest
  obtain ⟨_, _, rest⟩ := bind_eq_ok rest
  obtain ⟨_, _, rest⟩ := bind_eq_ok rest
  obtain ⟨_, _, rest⟩ := bind_eq_ok rest
  obtain ⟨_, _, final⟩ := bind_eq_ok rest
  cases final
  have fields := orSerde_eq_ok.mp contentRead
  exact ⟨content, fields, membership_eq (orSerde_eq_ok.mp targetRead) fields,
    rfl⟩

/-- The rules for memberships look at the current third party invite only where
the event rests on one. -/
theorem validMembershipChange_eq {change : MembershipChange}
    {current : Option Pdu} (isMember : change.currentEvent.kind = .roomMember)
    (same : ∀ invite, thirdPartyInviteOf ruma change.currentEvent =
      some invite → change.currentThirdPartyInvite = current) :
    validMembershipChange ruma roomVersion change =
      validMembershipChange ruma roomVersion
        { change with currentThirdPartyInvite := current } := by
  have sameFacts : membershipFacts ruma roomVersion
      { change with currentThirdPartyInvite := current } =
        membershipFacts ruma roomVersion change := rfl
  unfold validMembershipChange
  rw [sameFacts]
  cases read : membershipFacts ruma roomVersion change with
  | error failure => rfl
  | ok facts =>
      have allowed : membershipAllowed ruma roomVersion change facts =
          membershipAllowed ruma roomVersion
            { change with currentThirdPartyInvite := current } facts := by
        obtain ⟨content, fields, membership, invite⟩ :=
          membershipFacts_eq_ok read
        unfold membershipAllowed
        cases target : facts.targetMembership with
        | invite =>
            cases found : facts.thirdPartyInvite with
            | none => simp [inviteAllowed, found]
            | some invited =>
                rw [target] at membership
                rw [found] at invite
                have rests : thirdPartyInviteOf ruma change.currentEvent =
                    some invited := by
                  simp [thirdPartyInviteOf, isMember, fields, membership,
                    invite.symm]
                simp [inviteAllowed, found, same invited rests]
        | _ => rfl
      simp only [bind, Except.bind, allowed]

variable {fetchState : FetchState} {createEvent : Pdu}

theorem checkRoomMember_eq {event : Pdu} {left right : Option Pdu}
    (isMember : event.kind = .roomMember)
    (same : ∀ invite, thirdPartyInviteOf ruma event = some invite →
      left = right) :
    checkRoomMember ruma roomVersion event left fetchState createEvent =
      checkRoomMember ruma roomVersion event right fetchState createEvent := by
  unfold checkRoomMember
  cases event.stateKey with
  | none => rfl
  | some stateKey =>
      refine bind_congr (fun content => ?_)
      refine ite_congr rfl (fun _ => rfl) (fun _ => ?_)
      refine ite_congr rfl (fun _ => rfl) (fun _ => ?_)
      exact validMembershipChange_eq isMember same

theorem checkByKind_eq {createContent : RoomCreateContentFields}
    {expectedRoomId : RoomId} {event : Pdu} {left right : Option Pdu}
    (same : ∀ invite, thirdPartyInviteOf ruma event = some invite →
      left = right) :
    checkByKind ruma roomVersion createContent expectedRoomId event left
        fetchState createEvent =
      checkByKind ruma roomVersion createContent expectedRoomId event right
        fetchState createEvent := by
  unfold checkByKind
  refine ite_congr rfl (fun _ => rfl) (fun _ => ?_)
  refine ite_congr rfl (fun _ => rfl) (fun _ => ?_)
  exact ite_congr rfl (fun isMember => checkRoomMember_eq isMember same)
    (fun _ => rfl)

/-- The auth check looks at the current third party invite only for an event
that rests on one and has passed the checks on its room. -/
theorem authCheck_eq {event : Pdu} {left right : Option Pdu}
    (same : ∀ invite, thirdPartyInviteOf ruma event = some invite →
      (roomVersion.roomIdsAsHashes = true →
        createEvent.eventId ∉ event.authEvents) → left = right) :
    authCheck ruma roomVersion event left fetchState createEvent =
      authCheck ruma roomVersion event right fetchState createEvent := by
  unfold authCheck
  refine ite_congr rfl (fun _ => rfl) (fun _ => ?_)
  refine bind_congr (fun createContent => ?_)
  refine ite_congr rfl (fun _ => rfl) (fun _ => ?_)
  refine bind_congr (fun expectedRoomId => ?_)
  refine bind_congr (fun roomId => ?_)
  refine ite_congr rfl (fun _ => rfl) (fun _ => ?_)
  refine ite_congr rfl (fun _ => rfl) (fun unclaimed => ?_)
  refine ite_congr rfl (fun _ => rfl) (fun _ => ?_)
  refine bind_congr (fun elsewhere => ?_)
  refine ite_congr rfl (fun _ => rfl) (fun _ => ?_)
  refine checkByKind_eq (fun invite rests => ?_)
  refine same invite rests (fun hashes cited => unclaimed ?_)
  simp [hashes, cited]

end

/-- An invite that rests on a third party invite cites none but its own. -/
def CitesOwnInvite (ruma : Ruma) (store : EventStore) (event : Pdu) : Prop :=
  ∀ invite, thirdPartyInviteOf ruma event = some invite →
    ∀ id ∈ event.authEvents, ∀ cited, store.fetch id = some cited →
      cited.kind = .roomThirdPartyInvite →
      cited.stateKey = some invite.token

/-- No third party invite is filed under another type. -/
def InvitesKeyed (store : EventStore) (state : StateMap) : Prop :=
  ∀ key id event, state key = some id → store.fetch id = some event →
    event.kind = .roomThirdPartyInvite → key.1 = .roomThirdPartyInvite

section

variable {ruma : Ruma} {store : EventStore} {roomVersion : RoomVersion}

variable {authState : AuthState}

theorem currentThirdParty_eq {only : TypeStateKey}
    (every : EveryEntry (fun key event =>
      event.kind = .roomThirdPartyInvite → key = only) authState)
    (left right : HashOrder) :
    currentThirdParty left authState = currentThirdParty right authState := by
  have entries : (left.map authState).entries.Perm
      (right.map authState).entries :=
    (left.perm _).trans (right.perm _).symm
  unfold currentThirdParty
  refine find?_eq_of_perm (entries.map Sigma.snd) ?_
  intro one oneListed other otherListed oneInvite otherInvite
  have found : ∀ event, event ∈ (left.map authState).entries.map Sigma.snd →
      decide (event.kind = .roomThirdPartyInvite) = true →
      authState.lookup only = some event := by
    intro event listed invites
    obtain ⟨⟨key, value⟩, member, rfl⟩ := List.mem_map.mp listed
    have row : authState.lookup key = some value :=
      AList.mem_lookup_iff.mpr ((left.perm _).mem_iff.mp member)
    rw [← every key value row (by simpa using invites)]
    exact row
  have oneRow := found one oneListed oneInvite
  rw [found other otherListed otherInvite] at oneRow
  exact (Option.some.inj oneRow).symm

variable {state : StateMap} {stateKey : StateKey}

theorem create_cited {event created : Pdu}
    (result : authStateFor ruma store roomVersion store.fetch state event
      stateKey = .ok authState) (hashes : roomVersion.roomIdsAsHashes = true)
    (start : createAuthState ruma store roomVersion event =
      .ok (AList.insert (created.kind, "") created ∅))
    (other : created.kind ≠ .roomCreate) :
    EveryEntry (fun key found => key = (.roomCreate, "") →
      found.eventId ∈ event.authEvents) authState := by
  refine authStateFor_every result ?_ ?_ ?_
  · intro begun same
    rw [start] at same
    cases same
    exact everyEntry_empty.insert
      (fun same => absurd (congrArg Prod.fst same) other)
  · intro id cited found _ fetched _ _
    rw [store.named fetched]
    exact cited
  · intro authTypes types key member _ _ _ _ same
    subst same
    rw [create_mem_authTypes types, hashes] at member
    cases member.1

theorem authStateFor_ownInvite {event createEvent : Pdu}
    {invite : ThirdPartyInvite}
    (result : authStateFor ruma store roomVersion store.fetch state event
      stateKey = .ok authState)
    (row : authState.lookup (.roomCreate, "") = some createEvent)
    (unclaimed : roomVersion.roomIdsAsHashes = true →
      createEvent.eventId ∉ event.authEvents)
    (own : CitesOwnInvite ruma store event) (keyed : InvitesKeyed store state)
    (rests : thirdPartyInviteOf ruma event = some invite) :
    EveryEntry (fun key found => found.kind = .roomThirdPartyInvite →
      key = (.roomThirdPartyInvite, invite.token)) authState := by
  refine authStateFor_every result ?_ ?_ ?_
  · intro start begun
    rcases createAuthState_eq_ok begun with empty | found
    · subst empty
      exact everyEntry_empty
    · obtain ⟨hashes, created, same⟩ := found
      rw [same] at begun ⊢
      refine everyEntry_empty.insert (fun kind => ?_)
      have cited := create_cited result hashes begun (by simp [kind])
      exact absurd (cited _ createEvent row rfl) (unclaimed hashes)
  · intro id cited found foundKey fetched isKey kind
    have token := own invite rests id cited found fetched kind
    rw [isKey] at token
    cases token
    rw [kind]
  · intro authTypes types key member id found held fetched kind
    obtain ⟨other, otherRests, same⟩ := thirdParty_mem_authTypes types
      (keyed key id found held fetched kind) member
    rw [rests] at otherRests
    cases otherRests
    exact same

theorem passesAuthCheck_eq {event : Pdu} (own : CitesOwnInvite ruma store event)
    (keyed : InvitesKeyed store state) (left right : EventId → HashOrder) :
    passesAuthCheck ruma store roomVersion left store.fetch state event
        stateKey =
      passesAuthCheck ruma store roomVersion right store.fetch state event
        stateKey := by
  unfold passesAuthCheck
  refine bind_congr_ok (fun authState result => ?_)
  refine bind_congr_ok (fun createEvent created => ?_)
  have row : authState.lookup (.roomCreate, "") = some createEvent := by
    cases found : authState.lookup (EventType.roomCreate, "") with
    | none =>
        rw [found] at created
        cases created
    | some other =>
        rw [found] at created
        exact congrArg some (Except.ok.inj created)
  refine authCheck_eq (fun invite rests unclaimed => ?_)
  exact currentThirdParty_eq (authStateFor_ownInvite result row unclaimed own
    keyed rests) _ _

theorem InvitesKeyed.sequentialAuthCheck {order : EventId → HashOrder}
    {ids : List EventId} {start final : StateMap}
    (keyed : InvitesKeyed store start)
    (result : sequentialAuthCheck ruma store roomVersion order ids start =
      .ok final) : InvitesKeyed store final := by
  intro key id event entry fetched kind
  rcases sequentialAuthCheck_entry result entry with old | accepted
  · exact keyed key id event old fetched kind
  · obtain ⟨_, _, _, same, stateKey, _, _, again, _, keyEq, _⟩ := accepted
    rw [fetched] at again
    cases again
    rw [keyEq]
    exact kind

theorem InvitesKeyed.checkEvent {order : EventId → HashOrder} {next : StateMap}
    {event : Pdu} (keyed : InvitesKeyed store state)
    (fetched : store.fetch event.eventId = some event)
    (result : checkEvent ruma store roomVersion order store.fetch state event =
      .ok next) : InvitesKeyed store next := by
  obtain ⟨stateKey, _, ⟨_, rfl⟩ | rfl⟩ := checkEvent_eq_ok result
  · intro key id found row foundFetched kind
    rcases update_eq_some row with old | new
    · exact keyed key id found old foundFetched kind
    · obtain ⟨rfl, rfl⟩ := new
      rw [fetched] at foundFetched
      cases foundFetched
      exact kind
  · exact keyed

theorem sequentialAuthCheck_eq {ids : List EventId} {start : StateMap}
    (own : ∀ id ∈ ids, ∀ event, store.fetch id = some event →
      CitesOwnInvite ruma store event)
    (keyed : InvitesKeyed store start) (left right : EventId → HashOrder) :
    sequentialAuthCheck ruma store roomVersion left ids start =
      sequentialAuthCheck ruma store roomVersion right ids start := by
  unfold sequentialAuthCheck
  refine bind_congr_ok (fun events result => ?_)
  have stored : ∀ event ∈ events, event.eventId ∈ ids ∧
      store.fetch event.eventId = some event := by
    intro event member
    obtain ⟨id, listed, found⟩ := (mapM_matches result).1 event member
    have fetched := fetchOrNotFound_eq_ok found
    rw [store.named fetched]
    exact ⟨listed, fetched⟩
  refine foldlM_congr_of_invariant (InvitesKeyed store) events start keyed ?_ ?_
  · intro state event member holds
    obtain ⟨listed, fetched⟩ := stored event member
    unfold checkEvent
    refine bind_congr (fun stateKey => ?_)
    rw [passesAuthCheck_eq (own _ listed event fetched) holds left right]
  · intro state next event member holds step
    exact holds.checkEvent (stored event member).2 step

end

end ArcanaServer.StateRes
