import ArcanaServer.StateRes.IterativeAuthCheck

namespace ArcanaServer.StateRes

open Library ArcanaServer.Matrix List RoomVersion

/-! The level of a sender that the power sort orders events by, and the level
that the auth check gives the same sender. -/

/-- A state that consists of auth events of an event and of the create event of
its room.  Where two auth events have one type and state key, it has one of
them. -/
structure MadeOfAuthEvents (store : EventStore) (event createEvent : Pdu)
    (fetchState : FetchState) : Prop where
  isCreate : createEvent.kind = .roomCreate
  sources : ∀ kind stateKey entry, fetchState kind stateKey = some entry →
    entry.kind = kind ∧ entry.stateKey = some stateKey ∧ (entry = createEvent ∨
        ∃ id ∈ event.authEvents, store.fetch id = some entry)
  cited : ∀ id ∈ event.authEvents, ∀ entry stateKey,
    store.fetch id = some entry → entry.stateKey = some stateKey →
      (fetchState entry.kind stateKey).isSome

theorem foldlM_addCited {fetch : EventId → Option Pdu} {ids : List EventId}
    {authState result : AuthState}
    (built : ids.foldlM (addCited fetch) authState = .ok result) :
    (∀ key entry, result.lookup key = some entry →
      authState.lookup key = some entry ∨
        ∃ id ∈ ids, fetch id = some entry ∧ entry.kind = key.1 ∧
          entry.stateKey = some key.2) ∧
    (∀ key, (authState.lookup key).isSome → (result.lookup key).isSome) ∧
    ∀ id ∈ ids, ∀ entry stateKey, fetch id = some entry →
      entry.stateKey = some stateKey →
        (result.lookup (entry.kind, stateKey)).isSome := by
  induction ids generalizing authState with
  | nil =>
      cases built
      refine ⟨fun _ _ found => .inl found, fun _ known => known, ?_⟩
      intro id member
      cases member
  | cons id ids ih =>
      rw [foldlM_cons] at built
      obtain ⟨next, added, rest⟩ := bind_eq_ok built
      obtain ⟨sources, keeps, cited⟩ := ih rest
      cases fetched : fetch id with
      | none =>
          rw [addCited, fetched] at added
          cases added
          refine ⟨?_, keeps, ?_⟩
          · intro key entry found
            refine (sources key entry found).imp_right ?_
            rintro ⟨other, member, from_⟩
            exact ⟨other, mem_cons_of_mem _ member, from_⟩
          · intro other member entry stateKey found
            rcases mem_cons.mp member with same | later
            · rw [same, fetched] at found
              cases found
            · exact cited other later entry stateKey found
      | some event =>
          rw [addCited, fetched] at added
          obtain ⟨stateKey, required, inserted⟩ := bind_eq_ok added
          cases inserted
          have isState : event.stateKey = some stateKey := by
            unfold requireStateKey at required
            split at required
            next held =>
              cases required
              exact held
            · cases required
          refine ⟨?_, ?_, ?_⟩
          · intro key entry found
            rcases sources key entry found with old | ⟨other, member, from_⟩
            · by_cases same : key = (event.kind, stateKey)
              · rw [same, AList.lookup_insert] at old
                cases old
                rw [same]
                exact .inr ⟨id, mem_cons_self, fetched, rfl, isState⟩
              · rw [AList.lookup_insert_ne same] at old
                exact .inl old
            · exact .inr ⟨other, mem_cons_of_mem _ member, from_⟩
          · intro key known
            apply keeps
            by_cases same : key = (event.kind, stateKey)
            · rw [same, AList.lookup_insert]
              rfl
            · rw [AList.lookup_insert_ne same]
              exact known
          · intro other member entry otherKey found isOther
            rcases mem_cons.mp member with same | later
            · rw [same, fetched] at found
              cases found
              rw [isState] at isOther
              cases isOther
              apply keeps
              rw [AList.lookup_insert]
              rfl
            · exact cited other later entry otherKey found isOther

theorem authStateFor_madeOfAuthEvents {ruma : Ruma} {store : EventStore}
    {roomVersion : RoomVersion} {event createEvent : Pdu}
    {stateKey : StateKey} {created authState : AuthState}
    (isCreate : createEvent.kind = .roomCreate)
    (creates : createAuthState ruma store roomVersion event = .ok created)
    (onlyCreate : ∀ key entry, created.lookup key = some entry →
      entry = createEvent ∧ key = (.roomCreate, "") ∧
        createEvent.stateKey = some "")
    (built : authStateFor ruma store roomVersion store.fetch (fun _ => none)
      event stateKey = .ok authState) :
    MadeOfAuthEvents store event createEvent
      (fun kind stateKey => authState.lookup (kind, stateKey)) := by
  unfold authStateFor at built
  obtain ⟨authTypes, _, built⟩ := bind_eq_ok built
  rw [creates, ok_bind] at built
  obtain ⟨cited, folded, built⟩ := bind_eq_ok built
  have unresolved : ∀ authTypes : List TypeStateKey,
      authTypes.foldl (addResolved store store.fetch (fun _ => none)) cited =
        cited := by
    intro authTypes
    induction authTypes with
    | nil => rfl
    | cons key rest ih => exact ih
  rw [unresolved] at built
  cases built
  obtain ⟨sources, _, complete⟩ := foldlM_addCited folded
  refine ⟨isCreate, ?_, complete⟩
  intro kind stateKey entry found
  rcases sources _ _ found with old | ⟨id, member, fetched, isKind, isState⟩
  · obtain ⟨rfl, sameKey, isState⟩ := onlyCreate _ _ old
    cases sameKey
    exact ⟨isCreate, isState, .inl rfl⟩
  · exact ⟨isKind, isState, .inr ⟨id, member, fetched⟩⟩

/-- The lenient decoders of the Matrix library, which take numbers and strings
of digits, read what the strict ones read. -/
structure LenientLevels (ruma : Ruma) : Prop where
  level : ∀ value level, Json.asInt value = some level →
    ruma.v1PowerLevel value = some level
  values : ∀ value users, ruma.intPowerLevelValues value = some users →
    ruma.v1PowerLevelValues value = some users

def citedPowerLevels (store : EventStore) (completes : Completion)
    (event : Pdu) : Option Pdu :=
  ((completes.bufferUnordered event.authEvents).filterMap store.fetch).find?
    (fun event => isTypeAndKey event .roomPowerLevels "")

/-- A creator of a room whose version gives its creators every power. -/
def Privileged (ruma : Ruma) (roomVersion : RoomVersion)
    (createContent : RoomCreateContentFields) (createEvent : Pdu)
    (sender : UserId) : Prop :=
  roomVersion.explicitlyPrivilegeRoomCreators = true ∧
    (sender = createEvent.sender ∨ sender ∈ createContent.validCreators ruma)

instance (ruma : Ruma) (roomVersion : RoomVersion)
    (createContent : RoomCreateContentFields) (createEvent : Pdu)
    (sender : UserId) : Decidable (Privileged ruma roomVersion createContent
      createEvent sender) :=
  inferInstanceAs (Decidable (_ ∧ (_ ∨ _)))

/-- The power levels event that the sort finds and that of the state give the
sender one level. -/
structure SameLevel (ruma : Ruma) (roomVersion : RoomVersion)
    (createContent : RoomCreateContentFields) (createEvent : Pdu)
    (sender : UserId) (found listed : Pdu) : Prop where
  /-- The number format of the room version reads the content of the one if
  the format of the first versions reads that of the other. -/
  readable : (deserializeLegacyPowerLevelsContentFields ruma
      found.content).isSome =
    (deserializePowerLevelsContentFields ruma listed.content roomVersion).isSome
  privileged : Privileged ruma roomVersion createContent createEvent sender →
    ∀ content, deserializeLegacyPowerLevelsContentFields ruma found.content =
      some content → content.userLevel sender = maxInt
  /-- An event that cites several power levels events cites some that give the
  sender one level. -/
  single : ¬ Privileged ruma roomVersion createContent createEvent sender →
    found = listed ∨ ∀ left right,
      deserializeLegacyPowerLevelsContentFields ruma found.content = some left →
      deserializePowerLevelsContentFields ruma listed.content roomVersion =
        some right → left.userLevel sender = right.userLevel sender

/-- The condition under which the two levels are the same: without a power
levels event the sender is no creator, and with one it gives the sender the
same level in both readings. -/
inductive LevelsMeet (ruma : Ruma) (roomVersion : RoomVersion)
    (createContent : RoomCreateContentFields) (createEvent : Pdu)
    (sender : UserId) : Option Pdu → Option Pdu → Prop
  | absent
      (unprivileged : ¬ Privileged ruma roomVersion createContent createEvent
        sender)
      (notCreator : sentByCreator ruma roomVersion createEvent sender =
        .ok false) :
      LevelsMeet ruma roomVersion createContent createEvent sender none none
  | listed {found listed : Pdu}
      (same : SameLevel ruma roomVersion createContent createEvent sender
        found listed) :
      LevelsMeet ruma roomVersion createContent createEvent sender
        (some found) (some listed)

section

variable {ruma : Ruma} {store : EventStore} {roomVersion : RoomVersion}
  {completes : Completion} {event createEvent : Pdu}
  {createContent : RoomCreateContentFields} {fetchState : FetchState}
  {sender : UserId}

theorem LenientLevels.reads (lenient : LenientLevels ruma) {content : Json}
    {fields : PowerLevelsContentFields}
    (read : deserializePowerLevelsContentFields ruma content roomVersion =
      some fields) :
    deserializeLegacyPowerLevelsContentFields ruma content = some fields := by
  unfold deserializePowerLevelsContentFields at read
  split at read
  · unfold deserializeIntegerPowerLevelsContentFields at read
    unfold deserializeLegacyPowerLevelsContentFields
    have field : ∀ {α : Type} {missing result : α}
        {strict mild : Json → Option α} {fields : CanonicalJsonObject}
        {name : String},
        (∀ value result, strict value = some result →
          mild value = some result) →
        decodeOr missing strict fields name = some result →
        decodeOr missing mild fields name = some result := by
      intro α missing result strict mild fields name milder decoded
      unfold decodeOr at decoded ⊢
      cases held : fields.lookup name with
      | none =>
          rw [held] at decoded
          exact decoded
      | some value =>
          rw [held] at decoded
          exact milder value result decoded
    simp only [Option.bind_eq_bind, Option.bind_eq_some_iff] at read ⊢
    obtain ⟨object, isObject, users, usersRead, usersDefault, defaultRead,
      same⟩ := read
    exact ⟨object, isObject, users, field lenient.values usersRead,
      usersDefault, field lenient.level defaultRead, same⟩
  · exact read

theorem getPowerLevelForSender_stored
    (stored : store.fetch event.eventId = some event) :
    getPowerLevelForSender ruma store completes event.eventId =
      match citedPowerLevels store completes event with
      | none => some 0
      | some found =>
          (deserializeLegacyPowerLevelsContentFields ruma found.content).map
            (fun content => content.userLevel event.sender) := by
  unfold getPowerLevelForSender citedPowerLevels
  rw [stored]
  simp only [Option.map_some, Option.getD_some]
  cases (filterMap store.fetch
    (completes.bufferUnordered event.authEvents)).find?
      (fun event => isTypeAndKey event .roomPowerLevels "") with
  | none => rfl
  | some found =>
      simp only
      cases deserializeLegacyPowerLevelsContentFields ruma found.content <;> rfl

theorem senderPowerLevel_privileged
    (privileged : Privileged ruma roomVersion createContent createEvent sender)
    (powerLevels : Option Pdu) :
    (senderPowerLevel ruma roomVersion createContent powerLevels createEvent
      sender).toOption =
      (listedSenderLevel ruma roomVersion powerLevels createEvent
        sender).toOption.map (fun _ => maxInt) := by
  have isPrivileged : (roomVersion.explicitlyPrivilegeRoomCreators &&
      (sender == createEvent.sender ||
        (createContent.validCreators ruma).contains sender)) = true := by
    simpa [Privileged] using privileged
  unfold senderPowerLevel
  rw [isPrivileged]
  cases listedSenderLevel ruma roomVersion powerLevels createEvent sender <;>
    rfl

theorem senderPowerLevel_unprivileged
    (unprivileged : ¬ Privileged ruma roomVersion createContent createEvent
      sender)
    (powerLevels : Option Pdu) :
    senderPowerLevel ruma roomVersion createContent powerLevels createEvent
        sender =
      listedSenderLevel ruma roomVersion powerLevels createEvent sender := by
  have notPrivileged : (roomVersion.explicitlyPrivilegeRoomCreators &&
      (sender == createEvent.sender ||
        (createContent.validCreators ruma).contains sender)) = false := by
    rw [← Bool.not_eq_true]
    simpa [Privileged] using unprivileged
  unfold senderPowerLevel
  rw [notPrivileged]
  cases listedSenderLevel ruma roomVersion powerLevels createEvent sender <;>
    rfl

theorem listedSenderLevel_toOption (powerLevels : Pdu) :
    (listedSenderLevel ruma roomVersion (some powerLevels) createEvent
      sender).toOption =
      (deserializePowerLevelsContentFields ruma powerLevels.content
        roomVersion).map (fun content => content.userLevel sender) := by
  unfold listedSenderLevel
  simp only
  cases deserializePowerLevelsContentFields ruma powerLevels.content
    roomVersion <;> rfl

theorem absent_meets_iff :
    some 0 = (senderPowerLevel ruma roomVersion createContent none createEvent
        sender).toOption ↔
      LevelsMeet ruma roomVersion createContent createEvent sender none
        none := by
  have meets : LevelsMeet ruma roomVersion createContent createEvent sender
      none none ↔
        ¬ Privileged ruma roomVersion createContent createEvent sender ∧
          sentByCreator ruma roomVersion createEvent sender = .ok false :=
    ⟨fun meet => by
      cases meet with
      | absent unprivileged notCreator => exact ⟨unprivileged, notCreator⟩,
      fun both => .absent both.1 both.2⟩
  rw [meets]
  by_cases privileged : Privileged ruma roomVersion createContent createEvent
      sender
  · rw [senderPowerLevel_privileged privileged]
    refine iff_of_false ?_ (fun both => both.1 privileged)
    cases listedSenderLevel ruma roomVersion none createEvent sender with
    | ok level => simp [Except.toOption, maxInt]
    | error failure => simp [Except.toOption]
  · rw [senderPowerLevel_unprivileged privileged]
    simp only [privileged, not_false_eq_true, true_and]
    unfold listedSenderLevel
    cases sentByCreator ruma roomVersion createEvent sender with
    | ok creator => cases creator <;> simp [Except.toOption, bind, Except.bind,
        pure, Except.pure]
    | error failure => simp [Except.toOption, bind, Except.bind]

theorem SameLevel.unread_or_read {found listed : Pdu}
    (same : SameLevel ruma roomVersion createContent createEvent sender found
      listed) :
    (deserializeLegacyPowerLevelsContentFields ruma found.content = none ∧
      deserializePowerLevelsContentFields ruma listed.content roomVersion =
        none) ∨
    ∃ content other,
      deserializeLegacyPowerLevelsContentFields ruma found.content =
        some content ∧
      deserializePowerLevelsContentFields ruma listed.content roomVersion =
        some other := by
  have readable := same.readable
  cases read : deserializeLegacyPowerLevelsContentFields ruma
      found.content with
  | none =>
      rw [read] at readable
      exact .inl ⟨rfl, by simpa using readable.symm⟩
  | some content =>
      rw [read] at readable
      obtain ⟨other, otherRead⟩ := Option.isSome_iff_exists.mp readable.symm
      exact .inr ⟨content, other, rfl, otherRead⟩

theorem listed_meets_iff (lenient : LenientLevels ruma) (found listed : Pdu) :
    (deserializeLegacyPowerLevelsContentFields ruma found.content).map
        (fun content => content.userLevel sender) =
      (senderPowerLevel ruma roomVersion createContent (some listed)
        createEvent sender).toOption ↔
      SameLevel ruma roomVersion createContent createEvent sender found
        listed := by
  by_cases privileged : Privileged ruma roomVersion createContent createEvent
      sender
  · rw [senderPowerLevel_privileged privileged, listedSenderLevel_toOption]
    constructor
    · intro same
      refine ⟨?_, ?_, fun unprivileged => absurd privileged unprivileged⟩
      · simpa using congrArg Option.isSome same
      · intro _ content read
        rw [read] at same
        simp only [Option.map_some, Option.map_map, Option.some_eq_map_iff]
          at same
        obtain ⟨_, _, isMax⟩ := same
        exact isMax.symm
    · intro same
      rcases same.unread_or_read with ⟨read, otherRead⟩ |
        ⟨content, other, read, otherRead⟩
      · simp [read, otherRead]
      · simp [read, otherRead, same.privileged privileged content read]
  · rw [senderPowerLevel_unprivileged privileged, listedSenderLevel_toOption]
    constructor
    · intro same
      refine ⟨?_, fun isPrivileged => absurd isPrivileged privileged, ?_⟩
      · simpa using congrArg Option.isSome same
      · intro _
        refine .inr ?_
        intro left right leftRead rightRead
        simpa [leftRead, rightRead] using same
    · intro same
      rcases same.unread_or_read with ⟨read, otherRead⟩ |
        ⟨content, other, read, otherRead⟩
      · simp [read, otherRead]
      rcases same.single privileged with rfl | sameLevel
      · have both := lenient.reads otherRead
        rw [read] at both
        cases both
        simp [read, otherRead]
      · simp [read, otherRead, sameLevel content other read otherRead]

theorem citedPowerLevels_eq_none_iff
    (madeOf : MadeOfAuthEvents store event createEvent fetchState) :
    citedPowerLevels store completes event = none ↔
      fetchState .roomPowerLevels "" = none := by
  unfold citedPowerLevels
  rw [find?_eq_none]
  constructor
  · intro uncited
    by_contra present
    obtain ⟨entry, held⟩ := Option.ne_none_iff_exists'.mp present
    obtain ⟨isKind, isState, source⟩ := madeOf.sources _ _ _ held
    rcases source with same | ⟨id, member, fetched⟩
    · rw [same, madeOf.isCreate] at isKind
      cases isKind
    · have visited : id ∈ completes.bufferUnordered event.authEvents :=
        Completion.mem_bufferUnordered.mpr member
      exact uncited entry (mem_filterMap.mpr ⟨id, visited, fetched⟩)
        (by simp [isTypeAndKey, isKind, isState])
  · intro absent entry listed isPowerLevels
    obtain ⟨id, visited, fetched⟩ := mem_filterMap.mp listed
    obtain ⟨isKind, isState⟩ : entry.kind = .roomPowerLevels ∧
        entry.stateKey = some "" := by
      simpa [isTypeAndKey] using isPowerLevels
    have present := madeOf.cited id
      (Completion.mem_bufferUnordered.mp visited) entry "" fetched isState
    rw [isKind, absent] at present
    cases present

/-- The power sort and the auth check give the sender of an event one level
under just this condition. -/
theorem powerLevelForSender_meets_iff (lenient : LenientLevels ruma)
    (stored : store.fetch event.eventId = some event)
    (madeOf : MadeOfAuthEvents store event createEvent fetchState) :
    getPowerLevelForSender ruma store completes event.eventId =
        (senderPowerLevel ruma roomVersion createContent
          (fetchState .roomPowerLevels "") createEvent
          event.sender).toOption ↔
      LevelsMeet ruma roomVersion createContent createEvent event.sender
        (citedPowerLevels store completes event)
        (fetchState .roomPowerLevels "") := by
  rw [getPowerLevelForSender_stored stored]
  cases found : citedPowerLevels store completes event with
  | none =>
      rw [(citedPowerLevels_eq_none_iff madeOf).mp found]
      exact absent_meets_iff
  | some found' =>
      cases listed : fetchState .roomPowerLevels "" with
      | none =>
          rw [(citedPowerLevels_eq_none_iff madeOf).mpr listed] at found
          cases found
      | some listed' =>
          refine (listed_meets_iff lenient found' listed').trans ?_
          constructor
          · exact .listed
          · intro meet
            cases meet with
            | listed same => exact same

end

namespace BareRoom

def pdu (eventId : EventId) (sender : UserId) (kind : EventType)
    (stateKey : Option StateKey) (content : Json)
    (authEvents : List EventId) : Pdu :=
  { Pdu.message eventId "!room:h" sender with
    kind, content, stateKey, prevEvents := authEvents, authEvents }

def create : Pdu :=
  pdu "$create" "@alice:h" .roomCreate (some "")
    (.obj [("room_version", .str "11")]) []

def join (eventId : EventId) (user : UserId) : Pdu :=
  pdu eventId user .roomMember (some user)
    (.obj [("membership", .str "join")]) ["$create"]

def rules : Pdu :=
  pdu "$rules" "@alice:h" .roomJoinRules (some "")
    (.obj [("join_rule", .str "public")]) ["$create", "$alice"]

def message : Pdu :=
  pdu "$message" "@bob:h" (.other "m.room.message") none (.obj [])
    ["$create", "$bob"]

def fetch : EventId → Option Pdu
  | "$create" => some create
  | "$alice" => some (join "$alice" "@alice:h")
  | "$rules" => some rules
  | "$bob" => some (join "$bob" "@bob:h")
  | "$message" => some message
  | _ => none

def events : EventStore where
  fetch := fetch
  named := by
    intro id event found
    unfold fetch at found
    split at found <;> cases found <;> rfl

def authState (event : Pdu) : AuthState :=
  (authStateFor plainRuma events v11 events.fetch (fun _ => none)
    event "").toOption.getD ∅

def fetchState (event : Pdu) : FetchState :=
  fun kind stateKey => (authState event).lookup (kind, stateKey)

theorem madeOf {event : Pdu}
    (built : authStateFor plainRuma events v11 events.fetch
      (fun _ => none) event "" = .ok (authState event)) :
    MadeOfAuthEvents events event create (fetchState event) := by
  have empty : createAuthState plainRuma events v11 event =
      .ok ∅ := rfl
  refine authStateFor_madeOfAuthEvents rfl empty ?_ built
  intro key entry found
  cases found

def createContent : RoomCreateContentFields where
  roomVersion := some (.str "11")
  creator := none
  additionalCreators := none
  federate := true

theorem plainRuma_lenient : LenientLevels plainRuma :=
  ⟨fun _ _ read => read, fun _ _ read => read⟩

/-- Another member than the creator has level 0 in both readings. -/
theorem memberLevel_meets :
    getPowerLevelForSender plainRuma events (fiveAtOnce (fun _ => 0))
        message.eventId =
      (senderPowerLevel plainRuma v11 createContent
        (fetchState message .roomPowerLevels "") create
        message.sender).toOption := by
  refine (powerLevelForSender_meets_iff plainRuma_lenient rfl
    (madeOf rfl)).mpr ?_
  exact .absent (by decide) rfl

/-- The creator is sorted by level 0 and authorised with level 100. -/
theorem creatorLevel_differs :
    RoomCreateContentFields.decode create.content = some createContent ∧
      events.fetch rules.eventId = some rules ∧
      MadeOfAuthEvents events rules create (fetchState rules) ∧
      getPowerLevelForSender plainRuma events (fiveAtOnce (fun _ => 0))
        rules.eventId = some 0 ∧
      senderPowerLevel plainRuma v11 createContent
        (fetchState rules .roomPowerLevels "") create rules.sender =
          .ok 100 :=
  ⟨rfl, rfl, madeOf rfl, rfl, rfl⟩

end BareRoom

end ArcanaServer.StateRes
