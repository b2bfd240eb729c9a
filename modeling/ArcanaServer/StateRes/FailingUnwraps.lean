import ArcanaServer.StateRes.EntryChanges
import ArcanaServer.StateRes.MembershipRules

namespace ArcanaServer.StateRes

open Library ArcanaServer.Matrix RoomCreateContentFields Option RoomVersion

def Panics {α : Type} (outcome : Outcome α) : Prop :=
  ∃ message, outcome = .error (.panic message)

namespace Panics

variable {α β : Type}

theorem not_ok {value : α} : ¬ Panics (.ok value) := by
  rintro ⟨message, same⟩
  cases same

theorem not_after_pure {reads : α → Prop} {answer : α → β} :
    ¬ ∃ value, reads value ∧ Panics (pure (answer value) : Outcome β) := by
  rintro ⟨value, _, panics⟩
  exact not_ok panics

theorem not_error {error : Error} :
    ¬ Panics (.error (.error error) : Outcome α) := by
  rintro ⟨message, same⟩
  cases same

variable {next : α → Outcome β}

theorem bind_iff {first : Outcome α} : Panics (first >>= next) ↔
      Panics first ∨ ∃ value, first = .ok value ∧ Panics (next value) := by
  cases first with
  | ok value | error failure => simp [Panics, bind, Except.bind]

theorem orSerde_bind_iff {decoded : Option α} :
    Panics (orSerde decoded >>= next) ↔
      ∃ value, decoded = some value ∧ Panics (next value) := by
  cases decoded with
  | some value => simp [orSerde, ok_bind]
  | none => simp [orSerde, bind_iff, not_error]

theorem expectSome_bind_iff {message : String} {option : Option α} :
    Panics (expectSome message option >>= next) ↔
      option = none ∨ ∃ value, option = some value ∧ Panics (next value) := by
  cases option with
  | some value => simp [expectSome, ok_bind]
  | none => exact iff_of_true ⟨message, rfl⟩ (.inl rfl)

theorem not_bind {first : Outcome α} (quiet : ¬ Panics first)
    (continues : ∀ value, ¬ Panics (next value)) :
    ¬ Panics (first >>= next) := by
  rw [bind_iff]
  rintro (panics | ⟨value, _, panics⟩)
  · exact quiet panics
  · exact continues value panics

theorem not_orSerde {decoded : Option α} : ¬ Panics (orSerde decoded) := by
  cases decoded with
  | some value => exact not_ok
  | none => exact not_error

theorem not_ite {condition : Prop} [Decidable condition]
    {left right : Outcome α} (whenTrue : ¬ Panics left)
    (whenFalse : ¬ Panics right) :
    ¬ Panics (if condition then left else right) := by
  split
  · exact whenTrue
  · exact whenFalse

end Panics

section

variable {ruma : Ruma} {roomVersion : RoomVersion} {event : Pdu}
  {currentThirdPartyInvite : Option Pdu} {fetchState : FetchState}
  {createEvent : Pdu} {createContent : RoomCreateContentFields}
  {roomId : RoomId}

variable {creators : List UserId}

theorem isCreator_panics_iff {user : UserId} {havePls : Bool} :
    Panics (isCreator ruma roomVersion creators createEvent user havePls) ↔
      roomVersion.explicitlyPrivilegeRoomCreators = false ∧ havePls = false ∧
        legacyCreator ruma roomVersion createEvent = none := by
  by_cases known : roomVersion.explicitlyPrivilegeRoomCreators = false →
      havePls = false →
      (legacyCreator ruma roomVersion createEvent).isSome = true
  · rw [isCreator_eq known]
    refine iff_of_false Panics.not_ok ?_
    rintro ⟨unprivileged, noPls, unnamed⟩
    have some_ := known unprivileged noPls
    rw [unnamed] at some_
    cases some_
  · push Not at known
    obtain ⟨unprivileged, noPls, unnamed⟩ := known
    have none_ : legacyCreator ruma roomVersion createEvent = none := by
      simpa using unnamed
    refine iff_of_true ?_ ⟨unprivileged, noPls, none_⟩
    unfold legacyCreator at none_
    cases usesSender : roomVersion.useRoomCreateSender with
    | true => simp [usesSender] at none_
    | false =>
        simp only [usesSender, Bool.false_eq_true, if_false,
          bind_eq_none_iff] at none_
        simp only [isCreator, unprivileged, usesSender, noPls, Bool.not_false,
          Bool.and_true, Bool.false_eq_true, if_false, if_true]
        refine Panics.bind_iff.mpr (.inl ?_)
        refine Panics.expectSome_bind_iff.mpr ?_
        cases read : ruma.roomCreate createEvent.content with
        | none => exact .inl rfl
        | some content =>
            refine .inr ⟨content, rfl, unwrapErr, ?_⟩
            rw [none_ content read]
            rfl

theorem membershipIn_not_panics {event : Option Pdu} :
    ¬ Panics (membershipIn event) := by
  cases event with
  | none => exact Panics.not_ok
  | some event =>
      exact Panics.not_bind Panics.not_orSerde (fun _ => Panics.not_ok)

theorem joinRulesIn_not_panics {event : Option Pdu} :
    ¬ Panics (joinRulesIn ruma event) := by
  cases event with
  | none => exact Panics.not_ok
  | some event => exact Panics.not_orSerde

theorem powerLevelsIn_not_panics {event : Option Pdu} :
    ¬ Panics (powerLevelsIn ruma event) := by
  cases event with
  | none => exact Panics.not_ok
  | some event => exact Panics.not_orSerde

def CreatorUnknown (ruma : Ruma) (roomVersion : RoomVersion)
    (fetchState : FetchState) (createEvent : Pdu) : Prop :=
  roomVersion.explicitlyPrivilegeRoomCreators = false ∧
    fetchState .roomPowerLevels "" = none ∧
    legacyCreator ruma roomVersion createEvent = none

theorem isCreator_panics_iff_unknown {user : UserId} :
    Panics (isCreator ruma roomVersion creators createEvent user
      (fetchState .roomPowerLevels "").isSome) ↔
      CreatorUnknown ruma roomVersion fetchState createEvent := by
  rw [isCreator_panics_iff, CreatorUnknown, isSome_eq_false_iff,
    isNone_iff_eq_none]

theorem joinAuthLevels_not_panics {powerLevelsEvent : Option Pdu}
    {user : UserId} :
    ¬ Panics (joinAuthLevels ruma roomVersion powerLevelsEvent user) := by
  cases powerLevelsEvent with
  | none => exact Panics.not_ok
  | some event =>
      exact Panics.not_bind Panics.not_orSerde (fun _ =>
        Panics.not_bind Panics.not_orSerde (fun _ => Panics.not_ok))

variable {content : RoomMemberContentFields}

theorem joinAuthIsValid_panics {target : UserId}
    (panics : Panics (joinAuthIsValid ruma roomVersion creators
      (membershipChange ruma event currentThirdPartyInvite fetchState
        createEvent target content))) :
    CreatorUnknown ruma roomVersion fetchState createEvent := by
  unfold joinAuthIsValid at panics
  split at panics
  · exact absurd panics Panics.not_ok
  · rcases Panics.bind_iff.mp panics with levels | ⟨levels, _, panics⟩
    · exact absurd levels joinAuthLevels_not_panics
    · rcases Panics.bind_iff.mp panics with creator | ⟨creator, _, panics⟩
      · exact isCreator_panics_iff_unknown.mp creator
      · exact absurd panics Panics.not_ok

theorem joinAuthIsValid_ends {target : UserId}
    (unknown : CreatorUnknown ruma roomVersion fetchState createEvent) :
    Panics (joinAuthIsValid ruma roomVersion creators
        (membershipChange ruma event currentThirdPartyInvite fetchState
          createEvent target content)) ∨
      ∃ valid, joinAuthIsValid ruma roomVersion creators
        (membershipChange ruma event currentThirdPartyInvite fetchState
          createEvent target content) = .ok valid := by
  unfold joinAuthIsValid
  split
  · exact .inr ⟨false, rfl⟩
  next user _ =>
    refine .inl (Panics.bind_iff.mpr (.inr ⟨(0, 0), ?_, ?_⟩))
    · simp only [membershipChange, unknown.2.1]
      rfl
    · exact Panics.bind_iff.mpr
        (.inl (isCreator_panics_iff_unknown.mpr unknown))

theorem membershipFacts_panics_iff {target : UserId}
    {membership : MembershipState}
    (created : decode createEvent.content =
      some createContent)
    (decoded : RoomMemberContentFields.decode event.content = some content)
    (held : content.membership.bind MembershipState.decode = some membership) :
    Panics (membershipFacts ruma roomVersion (membershipChange ruma event
        currentThirdPartyInvite fetchState createEvent target content)) ↔
      (∃ senderMembership, membershipIn (fetchState .roomMember event.sender) =
        .ok senderMembership) ∧
      (∃ targetMembership, membershipIn (fetchState .roomMember target) =
        .ok targetMembership) ∧
      (∃ joinRule, joinRulesIn ruma (fetchState .roomJoinRules "") =
        .ok joinRule) ∧
      CreatorUnknown ruma roomVersion fetchState createEvent := by
  have target_ := getMembership_decode decoded held
  simp only [membershipFacts, membershipChange, created, decoded, target_,
    orSerde, ok_bind]
  simp only [Panics.bind_iff, membershipIn_not_panics, joinRulesIn_not_panics,
    powerLevelsIn_not_panics, false_or, isCreator_panics_iff_unknown]
  constructor
  · rintro ⟨sender, senderRead, target, targetRead, _, _, rule, ruleRead,
      creator⟩
    refine ⟨⟨sender, senderRead⟩, ⟨target, targetRead⟩, ⟨rule, ruleRead⟩, ?_⟩
    rcases creator with joinAuth | ⟨_, _, unknown | ⟨_, _, unknown | last⟩⟩
    · exact joinAuthIsValid_panics joinAuth
    · exact unknown
    · exact unknown
    · obtain ⟨_, _, panics⟩ := last
      exact absurd panics Panics.not_ok
  · rintro ⟨⟨sender, senderRead⟩, ⟨target, targetRead⟩, ⟨rule, ruleRead⟩,
      unknown⟩
    have levels : powerLevelsIn ruma (fetchState .roomPowerLevels "") =
        .ok RoomPowerLevelsEventContent.default := by
      rw [unknown.2.1]
      rfl
    refine ⟨sender, senderRead, target, targetRead, _, levels, rule, ruleRead,
      ?_⟩
    refine (joinAuthIsValid_ends unknown).imp_right (fun ends => ?_)
    obtain ⟨valid, isValid⟩ := ends
    exact ⟨valid, isValid, .inl unknown⟩

/-- The rules for memberships get as far as to ask for the creator of the room,
who is not known. -/
structure MemberUnwrap (ruma : Ruma) (roomVersion : RoomVersion) (event : Pdu)
    (fetchState : FetchState) (createEvent : Pdu) : Prop where
  target : ∃ target, event.stateKey = some target ∧
    ruma.validUserId target = true ∧
    ∃ membership, membershipIn (fetchState .roomMember target) = .ok membership
  membership : ∃ content membership,
    RoomMemberContentFields.decode event.content = some content ∧
    content.membership.bind MembershipState.decode = some membership
  sender : ∃ membership,
    membershipIn (fetchState .roomMember event.sender) = .ok membership
  joinRule : ∃ joinRule,
    joinRulesIn ruma (fetchState .roomJoinRules "") = .ok joinRule
  unknown : CreatorUnknown ruma roomVersion fetchState createEvent

theorem checkRoomMember_panics_iff
    (created : decode createEvent.content =
      some createContent) :
    Panics (checkRoomMember ruma roomVersion event currentThirdPartyInvite
        fetchState createEvent) ↔
      MemberUnwrap ruma roomVersion event fetchState createEvent := by
  unfold checkRoomMember
  cases isState : event.stateKey with
  | none =>
      refine iff_of_false Panics.not_ok (fun unwraps => ?_)
      obtain ⟨target, other, _⟩ := unwraps.target
      rw [isState] at other
      cases other
  | some target =>
      simp only
      rw [Panics.orSerde_bind_iff]
      constructor
      · rintro ⟨content, decoded, panics⟩
        split at panics
        · exact absurd panics Panics.not_ok
        next held =>
        split at panics
        · exact absurd panics Panics.not_error
        next valid =>
        rw [isNone_iff_eq_none] at held
        obtain ⟨membership, held⟩ := ne_none_iff_exists'.mp held
        rcases Panics.bind_iff.mp panics with facts | ⟨_, _, panics⟩
        · obtain ⟨sender, targetRead, joinRule, unknown⟩ :=
            (membershipFacts_panics_iff created decoded held).mp facts
          exact ⟨⟨target, isState, by simpa using valid, targetRead⟩,
            ⟨content, membership, decoded, held⟩, sender, joinRule, unknown⟩
        · exact absurd panics Panics.not_ok
      · intro unwraps
        obtain ⟨other, same, valid, targetRead⟩ := unwraps.target
        rw [isState] at same
        cases same
        obtain ⟨content, membership, decoded, held⟩ := unwraps.membership
        refine ⟨content, decoded, ?_⟩
        rw [held]
        simp only [isNone_some, Bool.false_eq_true, if_false, valid,
          Bool.not_true]
        exact Panics.bind_iff.mpr (.inl
          ((membershipFacts_panics_iff created decoded held).mpr
            ⟨unwraps.sender, targetRead, unwraps.joinRule, unwraps.unknown⟩))

/-- The creator that the content of the create event leaves out is asked for
as well. -/
def CreatorLeftOut (ruma : Ruma) (roomVersion : RoomVersion)
    (fetchState : FetchState) (createEvent : Pdu) : Prop :=
  fetchState .roomPowerLevels "" = none ∧
    roomVersion.useRoomCreateSender = false ∧
    ∃ content, ruma.roomCreate createEvent.content = some content ∧
      content.creator = none

theorem senderPowerLevel_panics_iff {sender : UserId} :
    Panics (senderPowerLevel ruma roomVersion createContent
        (fetchState .roomPowerLevels "") createEvent sender) ↔
      CreatorLeftOut ruma roomVersion fetchState createEvent := by
  have listed : Panics (senderPowerLevel ruma roomVersion createContent
      (fetchState .roomPowerLevels "") createEvent sender) ↔
      Panics (listedSenderLevel ruma roomVersion
        (fetchState .roomPowerLevels "") createEvent sender) := by
    rw [senderPowerLevel, Panics.bind_iff]
    refine or_iff_left ?_
    rintro ⟨level, _, panics⟩
    exact Panics.not_ite Panics.not_ok Panics.not_ok panics
  rw [listed]
  unfold CreatorLeftOut listedSenderLevel
  cases fetchState .roomPowerLevels "" with
  | some event =>
      refine iff_of_false ?_ (fun leftOut => some_ne_none _ leftOut.1)
      exact Panics.not_bind Panics.not_orSerde (fun _ => Panics.not_ok)
  | none =>
      simp only [true_and]
      rw [Panics.bind_iff, or_iff_left Panics.not_after_pure]
      unfold sentByCreator
      cases usesSender : roomVersion.useRoomCreateSender with
      | true =>
          exact iff_of_false Panics.not_ok
            (fun leftOut => Bool.false_ne_true leftOut.1.symm)
      | false =>
          cases ruma.roomCreate createEvent.content with
          | none =>
              refine iff_of_false Panics.not_ok (fun leftOut => ?_)
              obtain ⟨_, content, read, _⟩ := leftOut
              cases read
          | some content =>
              simp only [Bool.false_eq_true, if_false, true_and,
                some.injEq, exists_eq_left']
              rw [Panics.expectSome_bind_iff]
              exact or_iff_left Panics.not_after_pure

theorem checkLevels_panics_iff :
    Panics (checkLevels ruma roomVersion createContent event
        (fetchState .roomPowerLevels "") createEvent) ↔
      CreatorLeftOut ruma roomVersion fetchState createEvent := by
  rw [checkLevels, Panics.bind_iff, senderPowerLevel_panics_iff]
  refine or_iff_left ?_
  rintro ⟨level, _, panics⟩
  have invites : ¬ Panics (checkThirdPartyInviteLevel ruma roomVersion
      (fetchState .roomPowerLevels "") level) := by
    cases fetchState .roomPowerLevels "" with
    | none => exact Panics.not_ok
    | some event =>
        exact Panics.not_bind Panics.not_orSerde (fun _ => Panics.not_ok)
  have creators : ¬ Panics (privilegedCreators ruma roomVersion createContent
      createEvent) :=
    Panics.not_ite (Panics.not_bind Panics.not_orSerde
      (fun _ => Panics.not_ok)) Panics.not_ok
  have levels : ¬ Panics (checkRoomPowerLevels ruma roomVersion createContent
      event (fetchState .roomPowerLevels "") createEvent level) :=
    Panics.not_ite (Panics.not_bind creators (fun _ => Panics.not_ok))
      Panics.not_ok
  have redacts : ¬ Panics (checkRoomRedaction ruma roomVersion event
      (fetchState .roomPowerLevels "") level) := by
    refine Panics.not_ite ?_ Panics.not_ok
    cases fetchState .roomPowerLevels "" with
    | none => exact Panics.not_ok
    | some event =>
        exact Panics.not_bind Panics.not_orSerde (fun _ => Panics.not_ok)
  exact Panics.not_ite invites (Panics.not_ite Panics.not_ok
    (Panics.not_bind levels (fun _ => Panics.not_ite redacts Panics.not_ok)))
    panics

theorem checkJoinedSender_panics_iff :
    Panics (checkJoinedSender ruma roomVersion createContent roomId event
        fetchState createEvent) ↔
      (∃ member, fetchState .roomMember event.sender = some member ∧
        member.roomId = none) ∨
      (JoinedSender event fetchState roomId ∧
        CreatorLeftOut ruma roomVersion fetchState createEvent) := by
  constructor
  · intro panics
    unfold checkJoinedSender at panics
    cases found : fetchState .roomMember event.sender with
    | none =>
        rw [found] at panics
        exact absurd panics Panics.not_ok
    | some member =>
        rw [found] at panics
        rcases Panics.expectSome_bind_iff.mp panics with
          absent | ⟨memberRoom, hasRoom, panics⟩
        · exact .inl ⟨member, rfl, absent⟩
        split at panics
        · exact absurd panics Panics.not_ok
        next here =>
        obtain ⟨content, decoded, panics⟩ := Panics.orSerde_bind_iff.mp panics
        cases held : content.membership with
        | none =>
            rw [held] at panics
            exact absurd panics Panics.not_error
        | some value =>
            rw [held] at panics
            obtain ⟨membership, read, panics⟩ :=
              Panics.orSerde_bind_iff.mp panics
            split at panics
            · exact absurd panics Panics.not_ok
            next joined =>
            have leftOut := checkLevels_panics_iff.mp panics
            have same : memberRoom = roomId := by simpa using here
            have isJoin : membership = .join := by simpa using joined
            subst same isJoin
            exact .inr ⟨⟨member, content, value, found, hasRoom, decoded,
              held, read⟩, leftOut⟩
  · rintro (⟨member, found, absent⟩ | ⟨joined, leftOut⟩)
    · unfold checkJoinedSender
      rw [found]
      exact Panics.expectSome_bind_iff.mpr (.inl absent)
    · rw [checkJoinedSender_of_joined joined]
      exact checkLevels_panics_iff.mpr leftOut

/-- The inputs with which the check of an event reaches an `unwrap` or
`expect` that fails. -/
inductive FailingUnwrap (ruma : Ruma) (roomVersion : RoomVersion)
    (event : Pdu) (fetchState : FetchState) (createEvent : Pdu) : Prop
  /-- The create event has no room ID and its event ID gives none. -/
  | createEventId (absent : createEvent.roomId = none)
      (invalid : ruma.validRoomId
        (replaceChar '$' '!' createEvent.eventId) = false)
  /-- The power levels event of the state has no room ID. -/
  | powerLevels (roomId : RoomId) (powerLevels : Pdu)
      (expected : roomIdOrHash ruma createEvent = .ok roomId)
      (sameRoom : event.roomId = some roomId)
      (claims : event.authEvents.contains createEvent.eventId =
        !roomVersion.roomIdsAsHashes)
      (found : fetchState .roomPowerLevels "" = some powerLevels)
      (absent : powerLevels.roomId = none)
  /-- A membership is checked in a room whose creator is not known. -/
  | member (createContent : RoomCreateContentFields) (roomId : RoomId)
      (passes : PassesRoomChecks ruma roomVersion event fetchState createEvent
        createContent roomId)
      (isMember : event.kind = .roomMember)
      (unwraps : MemberUnwrap ruma roomVersion event fetchState createEvent)
  /-- The membership event of the sender has no room ID. -/
  | sender (createContent : RoomCreateContentFields) (roomId : RoomId)
      (member : Pdu)
      (passes : PassesRoomChecks ruma roomVersion event fetchState createEvent
        createContent roomId)
      (notMember : event.kind ≠ .roomMember)
      (notAliases : roomVersion.specialCaseAliasesAuth = true →
        event.kind ≠ .roomAliases)
      (found : fetchState .roomMember event.sender = some member)
      (absent : member.roomId = none)
  /-- The level of a joined sender hangs on a creator that is left out. -/
  | level (createContent : RoomCreateContentFields) (roomId : RoomId)
      (passes : PassesRoomChecks ruma roomVersion event fetchState createEvent
        createContent roomId)
      (notMember : event.kind ≠ .roomMember)
      (notAliases : roomVersion.specialCaseAliasesAuth = true →
        event.kind ≠ .roomAliases)
      (joined : JoinedSender event fetchState roomId)
      (leftOut : CreatorLeftOut ruma roomVersion fetchState createEvent)

theorem checkByKind_panics_iff
    (passes : PassesRoomChecks ruma roomVersion event fetchState createEvent
      createContent roomId) :
    Panics (checkByKind ruma roomVersion createContent roomId event
        currentThirdPartyInvite fetchState createEvent) ↔
      (event.kind = .roomMember ∧
        MemberUnwrap ruma roomVersion event fetchState createEvent) ∨
      (event.kind ≠ .roomMember ∧ (roomVersion.specialCaseAliasesAuth = true →
          event.kind ≠ .roomAliases) ∧
        ((∃ member, fetchState .roomMember event.sender = some member ∧
            member.roomId = none) ∨
          (JoinedSender event fetchState roomId ∧
            CreatorLeftOut ruma roomVersion fetchState createEvent))) := by
  unfold checkByKind
  rw [not_refused_of_passes passes, if_neg Bool.false_ne_true]
  by_cases aliases : roomVersion.specialCaseAliasesAuth = true ∧
      event.kind = .roomAliases
  · rw [if_pos aliases]
    refine iff_of_false Panics.not_ok ?_
    rintro (⟨isMember, _⟩ | ⟨_, notAliases, _⟩)
    · rw [aliases.2] at isMember
      cases isMember
    · exact notAliases aliases.1 aliases.2
  · rw [if_neg aliases]
    have notAliases : roomVersion.specialCaseAliasesAuth = true →
        event.kind ≠ .roomAliases := fun special same =>
      aliases ⟨special, same⟩
    by_cases isMember : event.kind = .roomMember
    · rw [if_pos isMember, checkRoomMember_panics_iff passes.created]
      simp [isMember]
    · rw [if_neg isMember, checkJoinedSender_panics_iff]
      simp only [isMember, false_and, ne_eq, not_false_eq_true, true_and,
        false_or]
      exact (and_iff_right notAliases).symm

end

theorem checkRoomCreate_not_panics {ruma : Ruma} {roomVersion : RoomVersion}
    {event : Pdu} : ¬ Panics (checkRoomCreate ruma roomVersion event) :=
  Panics.not_ite Panics.not_ok (Panics.not_ite Panics.not_ok
    (Panics.not_ite Panics.not_ok (Panics.not_bind Panics.not_orSerde
      (fun _ => Panics.not_ite Panics.not_ok (Panics.not_ite Panics.not_ok
        (Panics.not_ite Panics.not_ok Panics.not_ok))))))

theorem readable_of_accepted {ruma : Ruma} {roomVersion : RoomVersion}
    {createEvent otherCreate : Pdu} {otherInvite : Option Pdu}
    {otherState : FetchState} (isCreate : createEvent.kind = .roomCreate)
    (accepted : authCheck ruma roomVersion createEvent otherInvite otherState
      otherCreate = .ok true) :
    ∃ createContent, decode createEvent.content =
        some createContent ∧
      createContent.unsupportedVersion ruma = false := by
  unfold authCheck at accepted
  rw [if_pos isCreate] at accepted
  unfold checkRoomCreate at accepted
  split at accepted
  · cases accepted
  split at accepted
  · cases accepted
  split at accepted
  · cases accepted
  obtain ⟨content, decoded, accepted⟩ := bind_eq_ok accepted
  split at accepted
  · cases accepted
  next supported =>
  exact ⟨content, orSerde_eq_ok.mp decoded, by simpa using supported⟩

section

variable {ruma : Ruma} {roomVersion : RoomVersion} {event : Pdu}
  {currentThirdPartyInvite : Option Pdu} {fetchState : FetchState}
  {createEvent : Pdu} {createContent : RoomCreateContentFields}

theorem roomIdOrHash_error {failure : Failure}
    (isCreate : createEvent.kind = .roomCreate)
    (failed : roomIdOrHash ruma createEvent = .error failure) :
    createEvent.roomId = none ∧
      ruma.validRoomId (replaceChar '$' '!' createEvent.eventId) = false := by
  unfold roomIdOrHash at failed
  rw [if_neg (not_not.mpr isCreate)] at failed
  cases held : createEvent.roomId with
  | some roomId =>
      rw [held] at failed
      cases failed
  | none =>
      rw [held] at failed
      simp only at failed
      split at failed
      · cases failed
      next invalid => exact ⟨rfl, by simpa using invalid⟩

theorem failingUnwrap_of_panics (isCreate : createEvent.kind = .roomCreate)
    (hasRoom : event.roomId.isSome = true)
    (notCreate : event.kind ≠ .roomCreate)
    (panics : Panics (authCheck ruma roomVersion event currentThirdPartyInvite
      fetchState createEvent)) :
    FailingUnwrap ruma roomVersion event fetchState createEvent := by
  obtain ⟨message, result⟩ := panics
  rcases passes_or_stops notCreate result with
    ⟨createContent, roomId, passes⟩ | rejected | ⟨failure, failed, stops⟩
  · rw [authCheck_of_passes notCreate passes] at result
    rcases (checkByKind_panics_iff passes).mp ⟨message, result⟩ with
      ⟨isMember, unwraps⟩ | ⟨notMember, notAliases, sender⟩
    · exact .member createContent roomId passes isMember unwraps
    · rcases sender with ⟨member, found, absent⟩ | ⟨joined, leftOut⟩
      · exact .sender createContent roomId member passes notMember notAliases
          found absent
      · exact .level createContent roomId passes notMember notAliases joined
          leftOut
  · cases rejected
  · rcases stops with ⟨error, same⟩ | stop
    · rw [same] at failed
      cases failed
    · cases stop with
      | createEvent failure failed =>
          obtain ⟨absent, invalid⟩ := roomIdOrHash_error isCreate failed
          exact .createEventId absent invalid
      | event absent =>
          rw [absent] at hasRoom
          cases hasRoom
      | powerLevels roomId powerLevels expected sameRoom claims found absent =>
          exact .powerLevels roomId powerLevels expected sameRoom claims found
            absent

theorem panics_of_failingUnwrap (isCreate : createEvent.kind = .roomCreate)
    (created : decode createEvent.content =
      some createContent)
    (supported : createContent.unsupportedVersion ruma = false)
    (notCreate : event.kind ≠ .roomCreate)
    (fails : FailingUnwrap ruma roomVersion event fetchState createEvent) :
    Panics (authCheck ruma roomVersion event currentThirdPartyInvite
      fetchState createEvent) := by
  have reached : ∀ {createContent roomId},
      PassesRoomChecks ruma roomVersion event fetchState createEvent
        createContent roomId →
      Panics (checkByKind ruma roomVersion createContent roomId event
        currentThirdPartyInvite fetchState createEvent) →
      Panics (authCheck ruma roomVersion event currentThirdPartyInvite
        fetchState createEvent) := by
    intro createContent roomId passes panics
    rw [authCheck_of_passes notCreate passes]
    exact panics
  cases fails with
  | createEventId absent invalid =>
      refine ⟨"event ID can be parsed", ?_⟩
      simp [authCheck, notCreate, created, orSerde, supported,
        roomIdOrHash, isCreate, absent, invalid, bind, Except.bind]
  | powerLevels roomId powerLevels expected sameRoom claims found absent =>
      have elsewhere : powerLevelsElsewhere roomId
          (fetchState .roomPowerLevels "") = .error (.panic unwrapNone) := by
        rw [found, powerLevelsElsewhere, absent]
        rfl
      refine ⟨unwrapNone, ?_⟩
      simp only [authCheck, notCreate, if_false, created, orSerde, supported,
        expected, sameRoom, expectSome, ok_bind, elsewhere, ne_eq,
        not_true_eq_false, claims, Bool.false_eq_true]
      cases roomVersion.roomIdsAsHashes <;> simp [bind, Except.bind]
  | member createContent roomId passes isMember unwraps =>
      exact reached passes ((checkByKind_panics_iff passes).mpr
        (.inl ⟨isMember, unwraps⟩))
  | sender createContent roomId member passes notMember notAliases found
      absent =>
      exact reached passes ((checkByKind_panics_iff passes).mpr
        (.inr ⟨notMember, notAliases, .inl ⟨member, found, absent⟩⟩))
  | level createContent roomId passes notMember notAliases joined leftOut =>
      exact reached passes ((checkByKind_panics_iff passes).mpr
        (.inr ⟨notMember, notAliases, .inr ⟨joined, leftOut⟩⟩))

/-- The same for every event: one without a room ID fails as well, once the
room of the create event is known. -/
structure CheckUnwrap (ruma : Ruma) (roomVersion : RoomVersion) (event : Pdu)
    (fetchState : FetchState) (createEvent : Pdu) : Prop where
  notCreate : event.kind ≠ .roomCreate
  readable : ∃ createContent,
    decode createEvent.content = some createContent ∧
    createContent.unsupportedVersion ruma = false
  fails : (event.roomId = none ∧
      ∃ roomId, roomIdOrHash ruma createEvent = .ok roomId) ∨
    FailingUnwrap ruma roomVersion event fetchState createEvent

theorem readable_of_panics (notCreate : event.kind ≠ .roomCreate)
    (panics : Panics (authCheck ruma roomVersion event currentThirdPartyInvite
      fetchState createEvent)) :
    ∃ createContent, decode createEvent.content =
        some createContent ∧
      createContent.unsupportedVersion ruma = false := by
  unfold authCheck at panics
  rw [if_neg notCreate] at panics
  obtain ⟨createContent, created, panics⟩ := Panics.orSerde_bind_iff.mp panics
  split at panics
  · exact absurd panics Panics.not_ok
  next supported =>
  exact ⟨createContent, created, by simpa using supported⟩

theorem panics_iff_checkUnwrap (currentThirdPartyInvite : Option Pdu)
    (isCreate : createEvent.kind = .roomCreate) :
    Panics (authCheck ruma roomVersion event currentThirdPartyInvite
        fetchState createEvent) ↔
      CheckUnwrap ruma roomVersion event fetchState createEvent := by
  constructor
  · intro panics
    have notCreate : event.kind ≠ .roomCreate := by
      intro creates
      unfold authCheck at panics
      rw [if_pos creates] at panics
      exact checkRoomCreate_not_panics panics
    refine ⟨notCreate, readable_of_panics notCreate panics, ?_⟩
    cases held : event.roomId with
    | some roomId =>
        exact .inr (failingUnwrap_of_panics isCreate (by rw [held]; rfl)
          notCreate panics)
    | none =>
        cases expected : roomIdOrHash ruma createEvent with
        | ok roomId => exact .inl ⟨rfl, roomId, rfl⟩
        | error failure =>
            obtain ⟨absent, invalid⟩ := roomIdOrHash_error isCreate expected
            exact .inr (.createEventId absent invalid)
  · intro unwrap
    obtain ⟨createContent, created, supported⟩ := unwrap.readable
    rcases unwrap.fails with roomless | fails
    · obtain ⟨absent, roomId, expected⟩ := roomless
      refine ⟨"event must have a room ID", ?_⟩
      simp [authCheck, unwrap.notCreate, created, orSerde, supported,
        expected, absent, expectSome, bind, Except.bind]
    · exact panics_of_failingUnwrap isCreate created supported
        unwrap.notCreate fails

end

/-- With a create event that is accepted and an event that has a room ID, the
check panics for just those inputs. -/
theorem authCheck_panics_iff {ruma : Ruma} {roomVersion : RoomVersion}
    {event : Pdu} {currentThirdPartyInvite otherInvite : Option Pdu}
    {fetchState otherState : FetchState} {createEvent otherCreate : Pdu}
    (isCreate : createEvent.kind = .roomCreate)
    (accepted : authCheck ruma roomVersion createEvent otherInvite otherState
      otherCreate = .ok true)
    (hasRoom : event.roomId.isSome = true) :
    (¬ Panics (authCheck ruma roomVersion event currentThirdPartyInvite
        fetchState createEvent)) ↔
      (event.kind = .roomCreate ∨
        ¬ FailingUnwrap ruma roomVersion event fetchState createEvent) := by
  obtain ⟨createContent, created, supported⟩ :=
    readable_of_accepted isCreate accepted
  by_cases notCreate : event.kind = .roomCreate
  · refine iff_of_true ?_ (.inl notCreate)
    unfold authCheck
    rw [if_pos notCreate]
    exact checkRoomCreate_not_panics
  · simp only [notCreate, false_or]
    exact not_congr ⟨failingUnwrap_of_panics isCreate hasRoom notCreate,
      panics_of_failingUnwrap isCreate created supported notCreate⟩

namespace NumberedCreator

def ruma : Ruma :=
  { plainRuma with
    roomCreate := fun content => do
      let fields ← content.asObject
      match rawField fields "creator" with
      | none => some { creator := none }
      | some value => do
          let creator ← plainRuma.decodeUserId value
          return { creator := some creator } }

def createPdu (creator : Json) : Pdu :=
  { Pdu.message "$create" "!room:h" "@alice:h" with
    kind := .roomCreate, content := .obj [("creator", creator)],
    stateKey := some "" }

def joinPdu : Pdu :=
  { Pdu.message "$join" "!room:h" "@alice:h" with
    originServerTs := 1, kind := .roomMember,
    content := .obj [("membership", .str "join")], stateKey := some "@alice:h",
    prevEvents := ["$create"], authEvents := ["$create"] }

theorem knownCreator_ends :
    ¬ Panics (authCheck ruma v10 joinPdu none
      (fun _ _ => none) (createPdu (.str "@alice:h"))) := by
  have accepted : authCheck ruma v10
      (createPdu (.str "@alice:h")) none (fun _ _ => none)
      (createPdu (.str "@alice:h")) = .ok true := rfl
  refine (authCheck_panics_iff rfl accepted rfl).mpr (.inr ?_)
  intro fails
  cases fails with
  | createEventId absent _ => cases absent
  | powerLevels _ _ _ _ _ found _ => cases found
  | member _ _ _ _ unwraps => cases unwraps.unknown.2.2
  | sender _ _ _ _ notMember _ _ _
  | level _ _ _ notMember _ _ _ => exact notMember rfl

theorem numberedCreator_panics :
    authCheck ruma v10 (createPdu (.int 5)) none
      (fun _ _ => none) (createPdu (.int 5)) = .ok true ∧
    joinPdu.roomId = some "!room:h" ∧
    authCheck ruma v10 joinPdu none (fun _ _ => none)
      (createPdu (.int 5)) = .error (.panic unwrapErr) ∧
    Panics (authCheck ruma v10 joinPdu none (fun _ _ => none)
      (createPdu (.int 5))) :=
  ⟨rfl, rfl, rfl, unwrapErr, rfl⟩

end NumberedCreator

end ArcanaServer.StateRes
