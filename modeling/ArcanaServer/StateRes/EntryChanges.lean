import ArcanaServer.StateRes.LevelChanges
import ArcanaServer.StateRes.RoomChecks

namespace ArcanaServer.StateRes

open Library ArcanaServer.Matrix List RoomVersion

/-- Whatever entry is added, changed or removed, neither its old nor its new
level is above the level of the sender. -/
def EntriesWithin {κ : Type} [BEq κ] (userLevel : Int)
    (old new : List (κ × Int)) : Prop :=
  ∀ key, old.lookup key ≠ new.lookup key →
    (∀ level, old.lookup key = some level → level ≤ userLevel) ∧
      (∀ level, new.lookup key = some level → level ≤ userLevel)

/-- The others whose entry is changed or removed were below the sender. -/
def OthersBelow (sender : UserId) (userLevel : Int)
    (old new : List (UserId × Int)) : Prop :=
  ∀ user, user ≠ sender → old.lookup user ≠ new.lookup user →
    ∀ level, old.lookup user = some level → level < userLevel

structure MapChangesWithin (sender : UserId) (userLevel : Int)
    (old new : RoomPowerLevelsEventContent) : Prop where
  users : EntriesWithin userLevel old.users new.users
  events : EntriesWithin userLevel old.events new.events
  others : OthersBelow sender userLevel old.users new.users

def mapsAllowed (sender : UserId) (userLevel : Int) (creators : List UserId)
    (old new : RoomPowerLevelsEventContent) : Bool :=
  ((old.users ++ new.users).map Prod.fst).all
      (userChangeAllowed sender userLevel creators old new) &&
    ((old.events ++ new.events).map Prod.fst).all
      (eventChangeAllowed userLevel old new)

theorem checkPowerLevels_eq {ruma : Ruma} {roomVersion : RoomVersion}
    {powerEvent previous : Pdu} {userLevel : Int} {creators : List UserId}
    {old new : RoomPowerLevelsEventContent}
    (stateKey : powerEvent.stateKey = some "")
    (newDecoded :
      deserializePowerLevels ruma powerEvent.content roomVersion = some new)
    (oldDecoded :
      deserializePowerLevels ruma previous.content roomVersion = some old) :
    checkPowerLevels ruma roomVersion powerEvent (some previous) userLevel
        creators =
      some (mapsAllowed powerEvent.sender userLevel creators old new &&
        (notificationsChangeAllowed roomVersion userLevel old new &&
          levelNames.all (levelChangeAllowed userLevel
            (ruma.roomPowerLevelsToValue old)
            (ruma.roomPowerLevelsToValue new)))) := by
  simp only [checkPowerLevels, stateKey, ne_eq, not_true_eq_false, if_false,
    newDecoded, oldDecoded, bind, Option.bind_some, mapsAllowed,
    Bool.and_assoc]

section

variable {κ : Type} [DecidableEq κ] {old new : List (κ × Int)}

theorem isSome_lookup_iff {entries : List (κ × Int)} {key : κ} :
    (entries.lookup key).isSome = true ↔ key ∈ entries.map Prod.fst := by
  rw [lookup_isSome_iff, mem_map]
  simp only [beq_iff_eq, @eq_comm _ key]

theorem all_keys_iff {allowed : κ → Bool}
    (unlisted : ∀ key, old.lookup key = none → new.lookup key = none →
      allowed key = true) :
    ((old ++ new).map Prod.fst).all allowed = true ↔
      ∀ key, allowed key = true := by
  rw [all_eq_true]
  constructor
  · intro every key
    by_cases listed : key ∈ (old ++ new).map Prod.fst
    · exact every key listed
    · rw [map_append, mem_append, ← isSome_lookup_iff,
        ← isSome_lookup_iff] at listed
      simp only [not_or, Option.not_isSome_iff_eq_none] at listed
      exact unlisted key listed.1 listed.2
  · exact fun every key _ => every key

end

section

variable {sender user : UserId} {userLevel : Int} {creators : List UserId}
  {old new : RoomPowerLevelsEventContent}

theorem userChangeAllowed_iff :
    userChangeAllowed sender userLevel creators old new user = true ↔
      (user ∈ creators → new.users.lookup user = none) ∧
      (old.users.lookup user ≠ new.users.lookup user →
        ((∀ level, old.users.lookup user = some level → level ≤ userLevel) ∧
          ∀ level, new.users.lookup user = some level → level ≤ userLevel) ∧
        (user ≠ sender → ∀ level, old.users.lookup user = some level →
          level < userLevel)) := by
  unfold userChangeAllowed
  cases old.users.lookup user with
  | none =>
      cases new.users.lookup user with
      | none => simp [exceeds]
      | some after =>
          by_cases creator : user ∈ creators
          · simp [creator]
          · simp [creator, exceeds]
  | some before =>
      cases new.users.lookup user with
      | none =>
          by_cases other : user = sender
          · simp [other, exceeds]
          · simp [other, exceeds]
            omega
      | some after =>
          by_cases creator : user ∈ creators
          · simp [creator]
          · by_cases same : before = after
            · simp [creator, same]
            · by_cases other : user = sender
              · subst other
                simp [creator, same, exceeds]
              · simp [creator, same, other, exceeds]
                omega

theorem eventChangeAllowed_iff {kind : EventType} :
    eventChangeAllowed userLevel old new kind = true ↔
      (old.events.lookup kind ≠ new.events.lookup kind →
        (∀ level, old.events.lookup kind = some level → level ≤ userLevel) ∧
        ∀ level, new.events.lookup kind = some level → level ≤ userLevel) := by
  unfold eventChangeAllowed
  cases old.events.lookup kind with
  | none => cases new.events.lookup kind <;> simp [exceeds]
  | some before =>
      cases new.events.lookup kind with
      | none => simp [exceeds]
      | some after =>
          by_cases same : before = after
          · simp [same]
          · simp [same, exceeds]

theorem mapsAllowed_iff : mapsAllowed sender userLevel creators old new = true ↔
      MapChangesWithin sender userLevel old new ∧
        ∀ creator ∈ creators, new.users.lookup creator = none := by
  unfold mapsAllowed
  rw [Bool.and_eq_true, all_keys_iff (by
    intro user oldNone newNone
    simp [userChangeAllowed_iff, oldNone, newNone]), all_keys_iff (by
    intro kind oldNone newNone
    simp [eventChangeAllowed_iff, oldNone, newNone])]
  simp only [userChangeAllowed_iff, eventChangeAllowed_iff]
  constructor
  · rintro ⟨users, events⟩
    refine ⟨⟨fun user changed => ((users user).2 changed).1, events,
      fun user other changed => ((users user).2 changed).2 other⟩,
      fun creator member => (users creator).1 member⟩
  · rintro ⟨within, unlisted⟩
    exact ⟨fun user => ⟨unlisted user, fun changed =>
      ⟨within.users user changed, fun other => within.others user other
        changed⟩⟩, within.events⟩

end

/-- The loops over the maps let an event pass if the changes are within the
power of the sender and, in the versions that privilege them, the new content
lists no creator. -/
theorem checkPowerLevels_maps {ruma : Ruma} {roomVersion : RoomVersion}
    {powerEvent previous createEvent : Pdu}
    {createContent : RoomCreateContentFields} {creators : List UserId}
    {old new : RoomPowerLevelsEventContent}
    (stateKey : powerEvent.stateKey = some "")
    (newDecoded :
      deserializePowerLevels ruma powerEvent.content roomVersion = some new)
    (oldDecoded :
      deserializePowerLevels ruma previous.content roomVersion = some old)
    (named : privilegedCreators ruma roomVersion createContent createEvent =
      .ok creators) (userLevel : Int) :
    checkPowerLevels ruma roomVersion powerEvent (some previous) userLevel
        creators =
      some (mapsAllowed powerEvent.sender userLevel creators old new &&
        (notificationsChangeAllowed roomVersion userLevel old new &&
          levelNames.all (levelChangeAllowed userLevel
            (ruma.roomPowerLevelsToValue old)
            (ruma.roomPowerLevelsToValue new)))) ∧
    (mapsAllowed powerEvent.sender userLevel creators old new = true ↔
      MapChangesWithin powerEvent.sender userLevel old new ∧
        (roomVersion.explicitlyPrivilegeRoomCreators = true →
          ∀ creator ∈ creators, new.users.lookup creator = none)) := by
  refine ⟨checkPowerLevels_eq stateKey newDecoded oldDecoded, ?_⟩
  rw [mapsAllowed_iff]
  refine and_congr_right (fun _ => ⟨fun unlisted _ => unlisted, ?_⟩)
  intro unlisted
  cases privileged : roomVersion.explicitlyPrivilegeRoomCreators with
  | true => exact unlisted privileged
  | false =>
      rw [privilegedCreators, privileged] at named
      cases named
      intro creator member
      cases member

namespace ListedCreator

def createPdu : Pdu :=
  { Pdu.message "$create" "" "@alice:h" with
    roomId := none, kind := .roomCreate, stateKey := some "" }

def createFields : RoomCreateContentFields where
  roomVersion := none
  creator := none
  additionalCreators := none
  federate := true

def levelsOf (creator : List (UserId × Int)) : RoomPowerLevelsEventContent :=
  { RoomPowerLevelsEventContent.default with
    users := ("@mod:h", 50) :: creator }

def levelsPdu (creator : List (UserId × Int)) : Pdu :=
  { Pdu.message "$levels" "!create" "@mod:h" with
    originServerTs := 1, kind := .roomPowerLevels,
    content := .obj [("users", .obj (("@mod:h", .int 50) ::
      creator.map (fun entry => (entry.1, .int entry.2))))],
    stateKey := some "" }

/-- Entries of the users and of the events map. -/
abbrev LevelEntries := List (UserId × Int) × List (String × Int)

def changedLevels (entries : LevelEntries) : RoomPowerLevelsEventContent :=
  { levelsOf entries.1 with
    events := entries.2.map (fun entry => (.other entry.1, entry.2)) }

def changedPdu (entries : LevelEntries) : Pdu :=
  { levelsPdu [] with
    content := .obj [
      ("users", .obj ((("@mod:h", 50) :: entries.1).map
        (fun entry => (entry.1, .int entry.2)))),
      ("events", .obj (entries.2.map
        (fun entry => (entry.1, .int entry.2))))] }

def oldEntries : LevelEntries :=
  ([("@bob:h", 20), ("@carol:h", 10)],
    [("m.room.topic", 30), ("m.room.name", 40)])

/-- In each map one entry is changed, one removed and one added. -/
def newEntries : LevelEntries :=
  ([("@bob:h", 30), ("@dan:h", 50)],
    [("m.room.topic", 50), ("m.room.avatar", 25)])

theorem checkPowerLevels_maps_changed :
    checkPowerLevels plainRuma v12 (changedPdu newEntries)
      (some (changedPdu oldEntries)) 50 ["@alice:h"] = some true ∧
    MapChangesWithin "@mod:h" 50 (changedLevels oldEntries)
      (changedLevels newEntries) := by
  have rule := (@checkPowerLevels_maps plainRuma v12 (changedPdu newEntries)
    (changedPdu oldEntries) createPdu createFields ["@alice:h"] _ _
    rfl rfl rfl rfl 50).2
  exact ⟨by decide, (rule.mp (by decide)).1⟩

/-- The old content lists no creator and the new one lists her below the level
of the moderator. -/
theorem creator_added : v12.explicitlyPrivilegeRoomCreators = true ∧
    RoomCreateContentFields.decode createPdu.content = some createFields ∧
    deserializePowerLevels plainRuma (levelsPdu []).content v12 =
      some (levelsOf []) ∧
    deserializePowerLevels plainRuma (levelsPdu [("@alice:h", 10)]).content
      v12 = some (levelsOf [("@alice:h", 10)]) ∧
    privilegedCreators plainRuma v12 createFields createPdu =
      .ok ["@alice:h"] ∧
    (levelsOf []).users.lookup "@alice:h" = none ∧
    checkPowerLevels plainRuma v12 (levelsPdu [("@alice:h", 10)])
      (some (levelsPdu [])) 50 ["@alice:h"] = some false ∧
    ¬ (mapsAllowed "@mod:h" 50 ["@alice:h"] (levelsOf [])
          (levelsOf [("@alice:h", 10)]) = true ↔
        MapChangesWithin "@mod:h" 50 (levelsOf [])
          (levelsOf [("@alice:h", 10)])) := by
  have within : MapChangesWithin "@mod:h" 50 (levelsOf [])
      (levelsOf [("@alice:h", 10)]) := by
    refine ⟨fun user _ => ⟨fun level found => ?_, fun level found => ?_⟩,
      fun kind changed => absurd rfl changed, fun user other _ level found =>
        ?_⟩
    · simp only [levelsOf, lookup_cons, lookup_nil] at found
      split at found
      · cases found
        decide
      · cases found
    · simp only [levelsOf, lookup_cons, lookup_nil] at found
      split at found
      · cases found
        decide
      · split at found
        · cases found
          decide
        · cases found
    · have skipped : (user == "@mod:h") = false := by simpa using other
      simp [levelsOf, lookup_cons, skipped] at found
  refine ⟨rfl, rfl, rfl, rfl, rfl, by decide, by decide, fun claimed => ?_⟩
  exact absurd (claimed.mpr within) (by decide)

end ListedCreator

/-! Whether a power levels event may list a creator of the room, in the room
versions that privilege creators. -/

/-- The users of the event list the sender of the create event or one of the
additional creators. -/
def ListsCreator (ruma : Ruma) (roomVersion : RoomVersion)
    (createEvent event : Pdu) : Prop :=
  ∃ createContent levels creator,
    RoomCreateContentFields.decode createEvent.content = some createContent ∧
    deserializePowerLevels ruma event.content roomVersion = some levels ∧
    creator ∈ createEvent.sender :: createContent.validCreators ruma ∧
    (levels.users.lookup creator).isSome = true

structure JoinedSender (event : Pdu) (fetchState : FetchState)
    (roomId : RoomId) : Prop where
  joined : ∃ member content value, fetchState .roomMember event.sender =
      some member ∧ member.roomId = some roomId ∧
    RoomMemberContentFields.decode member.content = some content ∧
    content.membership = some value ∧
    MembershipState.decode value = some .join

/-- What the other rules ask of a power levels event in a room that has none
yet. -/
structure FirstPowerLevels (ruma : Ruma) (roomVersion : RoomVersion)
    (event : Pdu) (fetchState : FetchState) (createEvent : Pdu)
    (createContent : RoomCreateContentFields) (roomId : RoomId) : Prop where
  passes : PassesRoomChecks ruma roomVersion event fetchState createEvent
    createContent roomId
  sender : JoinedSender event fetchState roomId
  creatorRead : roomVersion.useRoomCreateSender = false →
    ∀ content, ruma.roomCreate createEvent.content = some content →
      content.creator.isSome = true
  sentByCreator :
    event.sender ∈ createEvent.sender :: createContent.validCreators ruma ∨
      roomVersion.useRoomCreateSender = false ∧
        ∃ content, ruma.roomCreate createEvent.content = some content ∧
          content.creator = some event.sender
  creatorsRead : ∀ creator ∈ createContent.additionalCreators.getD [],
    (ruma.decodeUserId creator).isSome = true
  stateKey : event.stateKey = some ""

theorem mapM_eq_some_filterMap {α β : Type} {f : α → Option β} :
    ∀ {list : List α}, (∀ element ∈ list, (f element).isSome = true) →
      list.mapM f = some (list.filterMap f) := by
  intro list
  induction list with
  | nil => intro _; rfl
  | cons head tail ih =>
      intro each
      obtain ⟨value, found⟩ :=
        Option.isSome_iff_exists.mp (each head mem_cons_self)
      simp [mapM_cons, found, ih (fun element member =>
        each element (mem_cons_of_mem _ member))]

theorem isSome_of_mapM {α β : Type} {f : α → Option β} :
    ∀ {list : List α} {values : List β}, list.mapM f = some values →
      ∀ element ∈ list, (f element).isSome = true := by
  intro list
  induction list with
  | nil => intro _ _ _ member; cases member
  | cons head tail ih =>
      intro values result element member
      rw [mapM_cons] at result
      obtain ⟨value, found, later⟩ := Option.bind_eq_some_iff.mp result
      obtain ⟨rest, tailResult, _⟩ := Option.bind_eq_some_iff.mp later
      rcases mem_cons.mp member with same | inside
      · rw [same, found]; rfl
      · exact ih tailResult element inside

section

variable {ruma : Ruma} {roomVersion : RoomVersion} {event : Pdu}
  {currentThirdPartyInvite : Option Pdu} {fetchState : FetchState}
  {createEvent : Pdu} {createContent : RoomCreateContentFields}
  {roomId : RoomId}

theorem checkJoinedSender_of_joined (sender : JoinedSender event fetchState
    roomId) :
    checkJoinedSender ruma roomVersion createContent roomId event fetchState
        createEvent =
      checkLevels ruma roomVersion createContent event
        (fetchState .roomPowerLevels "") createEvent := by
  obtain ⟨member, content, value, found, here, decoded, held, joined⟩ :=
    sender.joined
  simp [checkJoinedSender, found, here, expectSome, decoded, orSerde, held,
    joined, bind, Except.bind]

theorem joined_of_checkJoinedSender
    (accepted : checkJoinedSender ruma roomVersion createContent roomId event
      fetchState createEvent = .ok true) :
    JoinedSender event fetchState roomId := by
  unfold checkJoinedSender at accepted
  cases found : fetchState .roomMember event.sender with
  | none =>
      rw [found] at accepted
      cases accepted
  | some member =>
      rw [found] at accepted
      obtain ⟨memberRoom, hasRoom, accepted⟩ := bind_eq_ok accepted
      split at accepted
      · cases accepted
      next here =>
      obtain ⟨content, decoded, accepted⟩ := bind_eq_ok accepted
      cases held : content.membership with
      | none =>
          rw [held] at accepted
          cases accepted
      | some value =>
          rw [held] at accepted
          obtain ⟨membership, read, accepted⟩ := bind_eq_ok accepted
          split at accepted
          · cases accepted
          next joined =>
          have same : memberRoom = roomId := by simpa using here
          have isJoin : membership = .join := by simpa using joined
          subst same isJoin
          exact ⟨member, content, value, found, expectSome_eq_ok.mp hasRoom,
            orSerde_eq_ok.mp decoded, held, orSerde_eq_ok.mp read⟩

theorem privileged_iff {sender : UserId} : (sender == createEvent.sender ||
      (createContent.validCreators ruma).contains sender) = true ↔
      sender ∈ createEvent.sender :: createContent.validCreators ruma := by
  simp

theorem senderPowerLevel_first {sender : UserId}
    (privileged : roomVersion.explicitlyPrivilegeRoomCreators = true) :
    (∃ level, senderPowerLevel ruma roomVersion createContent none
        createEvent sender = .ok level ∧ 50 ≤ level) ↔
      (roomVersion.useRoomCreateSender = false →
        ∀ content, ruma.roomCreate createEvent.content = some content →
          content.creator.isSome = true) ∧
      (sender ∈ createEvent.sender :: createContent.validCreators ruma ∨
        roomVersion.useRoomCreateSender = false ∧
          ∃ content, ruma.roomCreate createEvent.content = some content ∧
            content.creator = some sender) := by
  simp only [senderPowerLevel, listedSenderLevel, sentByCreator, privileged,
    Bool.true_and, privileged_iff]
  cases usesSender : roomVersion.useRoomCreateSender with
  | true =>
      by_cases listed :
          sender ∈ createEvent.sender :: createContent.validCreators ruma
      · simp [listed, ok_bind, pure, Except.pure, maxInt]
      · have other : ¬ createEvent.sender = sender := by
          rintro rfl
          exact listed mem_cons_self
        simp [listed, ok_bind, pure, Except.pure, other]
  | false =>
      cases read : ruma.roomCreate createEvent.content with
      | none =>
          by_cases listed :
              sender ∈ createEvent.sender :: createContent.validCreators ruma
          · simp [listed, ok_bind, pure, Except.pure, maxInt]
          · simp [listed, ok_bind, pure, Except.pure]
      | some content =>
          cases named : content.creator with
          | none => simp [named, expectSome, bind, Except.bind]
          | some creator =>
              by_cases listed :
                  sender ∈ createEvent.sender :: createContent.validCreators ruma
              · simp [named, expectSome, listed, ok_bind, pure, Except.pure,
                  maxInt]
              · by_cases same : creator = sender
                · simp [named, expectSome, listed, ok_bind, pure, Except.pure,
                    same]
                · simp [named, expectSome, listed, ok_bind, pure, Except.pure,
                    same]

theorem checkLevels_powerLevels {powerLevelsEvent : Option Pdu}
    (isPowerLevels : event.kind = .roomPowerLevels) :
    checkLevels ruma roomVersion createContent event powerLevelsEvent
        createEvent = .ok true ↔
      ∃ level creators,
        senderPowerLevel ruma roomVersion createContent powerLevelsEvent
          createEvent event.sender = .ok level ∧
        canSendEvent ruma event powerLevelsEvent level = true ∧
        privilegedCreators ruma roomVersion createContent createEvent =
          .ok creators ∧
        checkPowerLevels ruma roomVersion event powerLevelsEvent level
          creators = some true := by
  cases power : senderPowerLevel ruma roomVersion createContent
    powerLevelsEvent createEvent event.sender with
  | error failure => simp [checkLevels, power, bind, Except.bind]
  | ok level =>
      cases sends : canSendEvent ruma event powerLevelsEvent level with
      | false =>
          simp [checkLevels, power, ok_bind, isPowerLevels, sends, pure,
            Except.pure]
      | true =>
          cases privileged : privilegedCreators ruma roomVersion createContent
            createEvent with
          | error failure =>
              simp [checkLevels, power, isPowerLevels, sends,
                checkRoomPowerLevels, privileged, bind, Except.bind]
          | ok creators =>
              cases checked : checkPowerLevels ruma roomVersion event
                powerLevelsEvent level creators with
              | none =>
                  simp [checkLevels, power, isPowerLevels, sends,
                    checkRoomPowerLevels, privileged, checked, bind,
                    Except.bind, pure, Except.pure]
              | some allowed =>
                  cases allowed <;>
                    simp [checkLevels, power, isPowerLevels, sends,
                      checkRoomPowerLevels, privileged, checked,
                      checkRoomRedaction, bind, Except.bind, pure, Except.pure]

theorem authCheck_powerLevels (isPowerLevels : event.kind = .roomPowerLevels) :
    authCheck ruma roomVersion event currentThirdPartyInvite fetchState
        createEvent = .ok true ↔
      ∃ createContent roomId,
        PassesRoomChecks ruma roomVersion event fetchState createEvent
          createContent roomId ∧
        JoinedSender event fetchState roomId ∧
        checkLevels ruma roomVersion createContent event
          (fetchState .roomPowerLevels "") createEvent = .ok true := by
  have rule : ∀ {createContent roomId}, PassesRoomChecks ruma roomVersion event
      fetchState createEvent createContent roomId →
      authCheck ruma roomVersion event currentThirdPartyInvite fetchState
          createEvent =
        checkJoinedSender ruma roomVersion createContent roomId event
          fetchState createEvent :=
    authCheck_joined (by simp [isPowerLevels]) (by simp [isPowerLevels])
      (by simp [isPowerLevels])
  constructor
  · intro accepted
    obtain ⟨createContent, roomId, passes⟩ :=
      passes_of_accepted (by simp [isPowerLevels]) accepted
    rw [rule passes] at accepted
    have joined := joined_of_checkJoinedSender accepted
    rw [checkJoinedSender_of_joined joined] at accepted
    exact ⟨createContent, roomId, passes, joined, accepted⟩
  · rintro ⟨createContent, roomId, passes, joined, allowed⟩
    rw [rule passes, checkJoinedSender_of_joined joined]
    exact allowed

variable {creators : List UserId}

theorem checkPowerLevels_first {level : Int} :
    checkPowerLevels ruma roomVersion event none level creators = some true ↔
      event.stateKey = some "" ∧
        (deserializePowerLevels ruma event.content roomVersion).isSome =
          true := by
  unfold checkPowerLevels
  split
  next other => simp [other]
  next key =>
    have isEmpty : event.stateKey = some "" := by simpa using key
    cases deserializePowerLevels ruma event.content roomVersion <;>
      simp [isEmpty]

theorem canSendEvent_first {level : Int}
    (stateKey : event.stateKey = some "") :
    canSendEvent ruma event none level = true ↔ 50 ≤ level := by
  simp [canSendEvent, getSendLevel, stateKey]

theorem privilegedCreators_eq_ok
    (privileged : roomVersion.explicitlyPrivilegeRoomCreators = true) :
    privilegedCreators ruma roomVersion createContent createEvent =
        .ok creators ↔
      (∀ creator ∈ createContent.additionalCreators.getD [],
        (ruma.decodeUserId creator).isSome = true) ∧
      creators = createEvent.sender :: createContent.validCreators ruma := by
  simp only [privilegedCreators, privileged, if_true]
  constructor
  · intro read
    obtain ⟨additional, decoded, final⟩ := bind_eq_ok read
    cases final
    have every := isSome_of_mapM (orSerde_eq_ok.mp decoded)
    rw [mapM_eq_some_filterMap every] at decoded
    cases decoded
    exact ⟨every, rfl⟩
  · rintro ⟨every, rfl⟩
    rw [mapM_eq_some_filterMap every]
    rfl

theorem firstPowerLevels_accepted
    (privileged : roomVersion.explicitlyPrivilegeRoomCreators = true)
    (isPowerLevels : event.kind = .roomPowerLevels)
    (none_ : fetchState .roomPowerLevels "" = none) :
    authCheck ruma roomVersion event currentThirdPartyInvite fetchState
        createEvent = .ok true ↔
      (deserializePowerLevels ruma event.content roomVersion).isSome = true ∧
      ∃ createContent roomId, FirstPowerLevels ruma roomVersion event
        fetchState createEvent createContent roomId := by
  rw [authCheck_powerLevels isPowerLevels, none_]
  constructor
  · rintro ⟨createContent, roomId, passes, sender, allowed⟩
    obtain ⟨level, creators, power, sends, named, checked⟩ :=
      (checkLevels_powerLevels isPowerLevels).mp allowed
    obtain ⟨stateKey, decoded⟩ := checkPowerLevels_first.mp checked
    have high := (canSendEvent_first stateKey).mp sends
    obtain ⟨creatorRead, sentByCreator⟩ :=
      (senderPowerLevel_first privileged).mp ⟨level, power, high⟩
    exact ⟨decoded, createContent, roomId, passes, sender, creatorRead,
      sentByCreator, ((privilegedCreators_eq_ok privileged).mp named).1,
      stateKey⟩
  · rintro ⟨decoded, createContent, roomId, first⟩
    obtain ⟨level, power, high⟩ := (senderPowerLevel_first privileged).mpr
      ⟨first.creatorRead, first.sentByCreator⟩
    exact ⟨createContent, roomId, first.passes, first.sender,
      (checkLevels_powerLevels isPowerLevels).mpr ⟨level, _, power,
        (canSendEvent_first first.stateKey).mpr high,
        (privilegedCreators_eq_ok privileged).mpr ⟨first.creatorsRead, rfl⟩,
        checkPowerLevels_first.mpr ⟨first.stateKey, decoded⟩⟩⟩

theorem not_creator_of_listed {previous : Pdu} {level : Int}
    {levels : RoomPowerLevelsEventContent}
    (decoded : deserializePowerLevels ruma event.content roomVersion =
      some levels)
    (checked : checkPowerLevels ruma roomVersion event (some previous) level
      creators = some true) {creator : UserId}
    (listed : (levels.users.lookup creator).isSome = true) :
    creator ∉ creators := by
  unfold checkPowerLevels at checked
  split at checked
  · cases checked
  · simp only [decoded, bind, Option.bind_some] at checked
    obtain ⟨current, _, checked⟩ := Option.bind_eq_some_iff.mp checked
    simp only [Option.some.injEq, Bool.and_eq_true, all_eq_true] at checked
    obtain ⟨⟨⟨users, _⟩, _⟩, _⟩ := checked
    have named : creator ∈ (current.users ++ levels.users).map Prod.fst := by
      rw [map_append, mem_append]
      exact .inr (isSome_lookup_iff.mp listed)
    have allowed := users creator named
    intro member
    simp [userChangeAllowed, listed, member] at allowed

end

/-- With power levels in the state, an event that is accepted lists no creator.
Without them the rule on creators is passed over. -/
theorem powerLevels_listsNoCreator_iff {ruma : Ruma}
    {roomVersion : RoomVersion} {event : Pdu}
    {currentThirdPartyInvite : Option Pdu} {fetchState : FetchState}
    {createEvent : Pdu}
    (privileged : roomVersion.explicitlyPrivilegeRoomCreators = true)
    (isPowerLevels : event.kind = .roomPowerLevels) :
    (authCheck ruma roomVersion event currentThirdPartyInvite fetchState
        createEvent = .ok true →
      ¬ ListsCreator ruma roomVersion createEvent event) ↔
    ((fetchState .roomPowerLevels "").isSome = true ∨
      ¬ ListsCreator ruma roomVersion createEvent event ∨
      ¬ ∃ createContent roomId, FirstPowerLevels ruma roomVersion event
        fetchState createEvent createContent roomId) := by
  constructor
  · intro holds
    by_contra fails
    push Not at fails
    obtain ⟨absent, lists, first⟩ := fails
    have none_ : fetchState .roomPowerLevels "" = none := by simpa using absent
    have decoded : (deserializePowerLevels ruma event.content
        roomVersion).isSome = true := by
      obtain ⟨_, levels, _, _, decoded, _⟩ := lists
      rw [decoded]
      rfl
    exact holds ((firstPowerLevels_accepted privileged isPowerLevels
      none_).mpr ⟨decoded, first⟩) lists
  · intro condition accepted
    cases found : fetchState .roomPowerLevels "" with
    | none =>
        have first := (firstPowerLevels_accepted privileged isPowerLevels
          found).mp accepted
        rcases condition with present | unlisted | other
        · rw [found] at present
          cases present
        · exact unlisted
        · exact absurd first.2 other
    | some previous =>
        obtain ⟨createContent, roomId, passes, _, allowed⟩ :=
          (authCheck_powerLevels isPowerLevels).mp accepted
        obtain ⟨level, creators, _, _, named, checked⟩ :=
          (checkLevels_powerLevels isPowerLevels).mp allowed
        obtain ⟨_, rfl⟩ := (privilegedCreators_eq_ok privileged).mp named
        rintro ⟨otherContent, levels, creator, created, decoded, member, listed⟩
        rw [passes.created] at created
        cases created
        rw [found] at checked
        exact not_creator_of_listed decoded checked listed member

namespace ListedCreator

def memberPdu : Pdu :=
  { Pdu.message "$join" "!create" "@alice:h" with
    originServerTs := 1, kind := .roomMember,
    content := .obj [("membership", .str "join")], stateKey := some "@alice:h",
    prevEvents := ["$create"] }

def ownLevelsPdu : Pdu :=
  { Pdu.message "$own" "!create" "@alice:h" with
    originServerTs := 2, kind := .roomPowerLevels,
    content := .obj [("users", .obj [("@alice:h", .int 100)])],
    stateKey := some "", prevEvents := ["$join"], authEvents := ["$join"] }

def state (powerLevels : Option Pdu) : FetchState
  | .roomMember, "@alice:h" => some memberPdu
  | .roomPowerLevels, "" => powerLevels
  | _, _ => none

theorem lists_alice :
    ListsCreator plainRuma v12 createPdu ownLevelsPdu :=
  ⟨createFields, _, "@alice:h", rfl, rfl, mem_cons_self, rfl⟩

theorem laterLevels_refused :
    ListsCreator plainRuma v12 createPdu ownLevelsPdu ∧
    authCheck plainRuma v12 ownLevelsPdu none
      (state (some ownLevelsPdu)) createPdu ≠ .ok true := by
  refine ⟨lists_alice, fun accepted => ?_⟩
  exact (powerLevels_listsNoCreator_iff rfl rfl).mpr (.inl rfl) accepted
    lists_alice

theorem firstLevels_listCreator :
    v12.explicitlyPrivilegeRoomCreators = true ∧
    authCheck plainRuma v12 ownLevelsPdu none (state none)
      createPdu = .ok true ∧
    ListsCreator plainRuma v12 createPdu ownLevelsPdu :=
  ⟨rfl, rfl, lists_alice⟩

end ListedCreator

end ArcanaServer.StateRes
