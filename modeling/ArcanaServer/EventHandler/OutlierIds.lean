import ArcanaServer.EventHandler.Outlier
import ArcanaServer.Library.Trace

namespace ArcanaServer.EventHandler

open Library ArcanaServer.Matrix StateRes List World

variable (name : String) (value : Json) (fields : CanonicalJsonObject)

theorem removeField_insertField :
    removeField name (insertField name value fields) =
      removeField name fields := by
  induction fields with
  | nil => simp [insertField, removeField]
  | cons field rest inductionHypothesis =>
      obtain ⟨other, old⟩ := field
      by_cases same : other = name
      · simp [insertField, removeField, same]
      · have kept : ∀ fields : CanonicalJsonObject,
            removeField name ((other, old) :: fields) =
              (other, old) :: removeField name fields := by
          intro fields
          simp [removeField, same]
        rw [insertField, if_neg same, kept, kept, inductionHypothesis]

theorem lookup_insertField :
    (insertField name value fields).lookup name = some value := by
  induction fields with
  | nil => simp [insertField]
  | cons field rest inductionHypothesis =>
      obtain ⟨other, old⟩ := field
      by_cases same : other = name
      · simp [insertField, same]
      · have skipped : (name == other) = false := by
          simpa using Ne.symm same
        simp [insertField, same, lookup_cons, skipped, inductionHypothesis]

theorem removeField_comm (first second : String)
    (fields : CanonicalJsonObject) :
    removeField first (removeField second fields) =
      removeField second (removeField first fields) := by
  simp only [removeField, filter_filter]
  congr 1
  funext field
  exact Bool.and_comm _ _

namespace Surroundings

variable (surroundings : Surroundings)

def computedId (version : RoomVersionId) (fields : CanonicalJsonObject) :
    Option EventId :=
  surroundings.genEventId (removeField "event_id" fields) version

/-- The reference hash is a hash of the redacted event. -/
structure HashesRedacted : Prop where
  unsigned : ∀ fields version,
    surroundings.referenceHash (removeField "unsigned" fields) version =
      surroundings.referenceHash fields version
  redacted : ∀ fields redacted version,
    surroundings.redact fields version = some redacted →
    surroundings.referenceHash (removeField "event_id" redacted) version =
      surroundings.referenceHash (removeField "event_id" fields) version

def HasId (createEvent : Pdu) (eventId : EventId)
    (value : CanonicalJsonObject) : Prop :=
  ∀ version, surroundings.roomVersionId createEvent.content = some version →
    surroundings.computedId version value = some eventId

def AnswersAsAsked (createEvent : Pdu) : Prop := ∀ asked origin nextId value,
    surroundings.getEvent asked origin nextId = some (.obj value) →
    surroundings.HasId createEvent nextId value

structure OwnIds (world : World) : Prop where
  written : ∀ stored ∈ world.stored,
    surroundings.computedId stored.version stored.pdu = some stored.eventId
  rows : ∀ eventId pdu, world.outliers eventId = some pdu →
    ∃ stored ∈ world.stored, stored.eventId = eventId ∧ stored.pdu = pdu

def KeepsIds (before after : World) : Prop :=
  surroundings.OwnIds before → surroundings.OwnIds after

instance : IsPreorder World surroundings.KeepsIds where
  refl _ := id
  trans _ _ _ left right := right ∘ left

variable {surroundings} {version : RoomVersionId}

theorem OwnIds.of_same {before after : World} (own : surroundings.OwnIds before)
    (stored : after.stored = before.stored)
    (outliers : after.outliers = before.outliers) :
    surroundings.OwnIds after := by
  refine ⟨?_, ?_⟩
  · rw [stored]
    exact own.written
  · rw [stored, outliers]
    exact own.rows

theorem computedId_insertField (eventId : Json) (fields : CanonicalJsonObject) :
    surroundings.computedId version (insertField "event_id" eventId fields) =
      surroundings.computedId version fields := by
  unfold computedId
  rw [removeField_insertField]

theorem computedId_unsigned (hashes : surroundings.HashesRedacted)
    (fields : CanonicalJsonObject) :
    surroundings.computedId version (removeField "unsigned" fields) =
      surroundings.computedId version fields := by
  unfold computedId genEventId
  rw [removeField_comm, hashes.unsigned]

theorem computedId_redacted (hashes : surroundings.HashesRedacted)
    {fields redacted : CanonicalJsonObject}
    (isRedacted : surroundings.redact fields version = some redacted) :
    surroundings.computedId version redacted =
      surroundings.computedId version fields := by
  unfold computedId genEventId
  rw [hashes.redacted fields redacted version isRedacted]

theorem decodePdu_eventId {fields : CanonicalJsonObject} {pdu : Pdu}
    {eventId : EventId} (decoded : surroundings.decodePdu fields = some pdu)
    (named : fields.lookup "event_id" = some (.str eventId)) :
    pdu.eventId = eventId := by
  unfold decodePdu at decoded
  obtain ⟨decodedId, isId, decoded⟩ := Option.bind_eq_some_iff.mp decoded
  -- The other twelve fields.
  iterate 12 obtain ⟨_, -, decoded⟩ := Option.bind_eq_some_iff.mp decoded
  cases Option.some.inj decoded
  simp only [required, named, Option.bind_some, decodeEventId, Json.asStr]
    at isId
  exact (Option.some.inj (Option.filter_eq_some_iff.mp isId).1).symm

theorem genEventIdCanonicalJson_eq_some {pdu : Json}
    {computed : EventId × CanonicalJsonObject}
    (parsed : surroundings.genEventIdCanonicalJson pdu version =
      some computed) : pdu = .obj computed.2 := by
  simp only [genEventIdCanonicalJson, bind, Option.bind_eq_some_iff] at parsed
  obtain ⟨value, isObject, eventId, -, built⟩ := parsed
  cases Option.some.inj built
  cases pdu with
  | obj fields => rw [Option.some.inj isObject]
  | _ => cases isObject

section

variable {origin : ServerName} {createEvent : Pdu} {roomId : RoomId}
  (honest : surroundings.AnswersAsAsked createEvent)

theorem keeps_backOff (eventId : EventId) :
    Keeps surroundings.KeepsIds (backOff eventId) :=
  fun _ own => own.of_same rfl rfl

theorem keeps_ask {α : Type} (answer : Nat → α) :
    Keeps surroundings.KeepsIds (ask answer) :=
  fun _ own => own.of_same rfl rfl

theorem keeps_backingOff (eventId : EventId) :
    Keeps surroundings.KeepsIds (surroundings.backingOff eventId) := by
  refine Keeps.get.bind fun world => ?_
  cases world.tries eventId with
  | none => exact Keeps.pure false
  | some tries => exact keeps_ask _

include honest

theorem yields_fetchEvent (nextId : EventId) : Yields surroundings.KeepsIds
      (fun fetched => ∀ value, fetched = some value →
        surroundings.HasId createEvent nextId value)
      (surroundings.fetchEvent origin createEvent nextId) := by
  have answered : Yields surroundings.KeepsIds (fun answer => ∃ asked,
        answer = surroundings.getEvent asked origin nextId)
      (ask (fun asked => surroundings.getEvent asked origin nextId)) := by
    refine ⟨keeps_ask _, ?_⟩
    intro world answer after result
    cases result
    exact ⟨world.asked, rfl⟩
  have failed : Yields surroundings.KeepsIds
      (fun fetched : Option CanonicalJsonObject => ∀ value,
        fetched = some value →
        surroundings.HasId createEvent nextId value)
      (do
        backOff nextId
        return none) :=
    (Yields.of_keeps (keeps_backOff nextId)).bind fun _ _ =>
      Yields.pure (by simp)
  refine answered.bind fun answer isAnswer => ?_
  obtain ⟨asked, isAnswer⟩ := isAnswer
  cases answer with
  | none => exact failed
  | some pdu =>
      cases parsed : (surroundings.roomVersionId createEvent.content).bind
          (surroundings.genEventIdCanonicalJson pdu) with
      | none =>
          simp only [parsed]
          exact failed
      | some computed =>
          simp only [parsed]
          refine Yields.pure ?_
          intro value same
          cases same
          obtain ⟨version, -, isComputed⟩ := Option.bind_eq_some_iff.mp parsed
          have isObject := genEventIdCanonicalJson_eq_some isComputed
          exact honest asked origin nextId computed.2
            (isAnswer.symm.trans (congrArg some isObject))

theorem yields_fetchUnknown (fetched : List EventId) (nextId : EventId) :
    Yields surroundings.KeepsIds (fun fetched => ∀ value, fetched = some value →
        surroundings.HasId createEvent nextId value)
      (surroundings.fetchUnknown origin createEvent fetched nextId) := by
  have skipped : Yields surroundings.KeepsIds
      (fun fetched : Option CanonicalJsonObject => ∀ value,
        fetched = some value →
        surroundings.HasId createEvent nextId value)
      (pure none : Handling _) := Yields.pure (by simp)
  refine (Yields.of_keeps (keeps_backingOff nextId)).bind fun waiting _ => ?_
  split
  · exact skipped
  · split
    · exact skipped
    · refine (Yields.of_keeps Keeps.get).bind fun world _ => ?_
      split
      · exact skipped
      · exact yields_fetchEvent honest nextId

def Named (surroundings : Surroundings) (createEvent : Pdu)
    (events : List (EventId × CanonicalJsonObject)) : Prop :=
  ∀ event ∈ events, surroundings.HasId createEvent event.1 event.2

theorem yields_fetchAuthChain (rounds : Nat) (todo : List EventId)
    (events : List (EventId × CanonicalJsonObject))
    (named : Named surroundings createEvent events) :
    Yields surroundings.KeepsIds (Named surroundings createEvent)
      (surroundings.fetchAuthChain origin createEvent rounds todo events) := by
  induction rounds generalizing todo events with
  | zero => exact Yields.throw _
  | succ rounds inductionHypothesis =>
      cases todo with
      | nil => exact Yields.pure named
      | cons nextId todo =>
          refine (yields_fetchUnknown honest _ nextId).bind
            fun fetched isFetched => ?_
          cases fetched with
          | none => exact inductionHypothesis todo events named
          | some value =>
              refine inductionHypothesis _ _ ?_
              exact forall_mem_snoc named (isFetched value rfl)

theorem yields_gather (rounds : Nat) (id : EventId) :
    Yields surroundings.KeepsIds
      (fun gathered =>
        Named surroundings createEvent gathered.eventsInReverseOrder)
      (surroundings.gather origin createEvent rounds id) := by
  refine (Yields.of_keeps Keeps.get).bind fun world _ => ?_
  split
  · exact Yields.pure (by simp [Named])
  · refine (yields_fetchAuthChain honest rounds [id] []
      (by simp [Named])).bind fun events named => ?_
    exact Yields.pure named

variable
  {handle : EventId → CanonicalJsonObject → Handling (Pdu ×
    CanonicalJsonObject)}

omit honest in
theorem keeps_handleFetched (handles : ∀ eventId value,
      surroundings.HasId createEvent eventId value →
      Keeps surroundings.KeepsIds (handle eventId value)) (id : EventId)
    (pdus : List Handled) (event : EventId × CanonicalJsonObject)
    (named : surroundings.HasId createEvent event.1 event.2) :
    Keeps surroundings.KeepsIds
      (surroundings.handleFetched handle id pdus event) := by
  refine (keeps_backingOff event.1).bind fun waiting => ?_
  split
  · exact Keeps.pure pdus
  · refine Keeps.tryCatch ?_ fun error => ?_
    · exact (handles event.1 event.2 named).bind fun handled => Keeps.pure _
    · split
      · exact (keeps_backOff event.1).bind fun _ => Keeps.pure pdus
      · exact Keeps.throw error

theorem keeps_fetchAndHandleOutliers (rounds : Nat) (handles : ∀ eventId value,
      surroundings.HasId createEvent eventId value →
      Keeps surroundings.KeepsIds (handle eventId value))
    (events : List EventId) :
    Keeps surroundings.KeepsIds
      (surroundings.fetchAndHandleOutliers origin createEvent rounds handle
        events) := by
  refine (Yields.mapM (yields_gather honest rounds)
    events).keeps_bind fun gathered named => ?_
  refine Keeps.foldlM ?_ named []
  intro pdus found isNamed
  refine Keeps.foldlM (fun pdus event isNamed =>
    keeps_handleFetched handles found.id pdus event isNamed) ?_ _
  intro event member
  exact isNamed event (mem_reverse.mp member)

omit honest in
theorem yields_verifiedPdu (hashes : surroundings.HashesRedacted)
    (eventId : EventId) (value : CanonicalJsonObject) :
    Yields surroundings.KeepsIds
      (fun verified => surroundings.computedId version verified =
        surroundings.computedId version value)
      (surroundings.verifiedPdu eventId version value) := by
  refine (Yields.of_keeps (keeps_ask _)).bind fun verified _ => ?_
  split
  · exact Yields.pure rfl
  · split
    · exact Yields.throw _
    · rename_i redacted isRedacted
      refine (Yields.of_keeps Keeps.get).bind fun world _ => ?_
      refine (Yields.of_keeps (Keeps.refuseIf _ _)).bind fun _ _ => ?_
      exact Yields.pure (computedId_redacted hashes isRedacted)
  · exact Yields.throw _

omit honest in
theorem keeps_localAuthEvents (authIds : List EventId)
    (authEvents : AuthEvents) :
    Keeps surroundings.KeepsIds
      (surroundings.localAuthEvents roomId authIds authEvents) := by
  induction authIds generalizing authEvents with
  | nil => exact Keeps.pure authEvents
  | cons authId rest inductionHypothesis =>
      refine Keeps.get.bind fun world => ?_
      split
      · exact inductionHypothesis authEvents
      · exact (Keeps.liftExcept _).bind fun _ => inductionHypothesis _

omit honest in
theorem keeps_addPduOutlier {eventId : EventId} {pdu : CanonicalJsonObject}
    (named : surroundings.computedId version pdu = some eventId) :
    Keeps surroundings.KeepsIds (addPduOutlier version eventId pdu) := by
  intro world own
  refine ⟨?_, ?_⟩
  · exact forall_mem_snoc own.written named
  · intro other row isRow
    rcases update_eq_some isRow with old | new
    · obtain ⟨stored, member, same⟩ := own.rows other row old
      exact ⟨stored, mem_append_left _ member, same⟩
    · exact ⟨_, mem_append_right _ (mem_singleton_self _),
        new.1.symm, new.2.symm⟩

variable {fetch : List EventId → Handling (List Handled)}

omit honest in
theorem keeps_fetchMissing
    (fetches : ∀ events, Keeps surroundings.KeepsIds (fetch events))
    (authEventsKnown : Bool) (missing : List EventId) :
    Keeps surroundings.KeepsIds
      (fetchMissing fetch authEventsKnown missing) := by
  unfold fetchMissing
  split
  · exact fetches missing
  · exact Keeps.pure []

omit honest in
theorem keeps_handleOutlierWith (hashes : surroundings.HashesRedacted)
    (fetches : ∀ events, Keeps surroundings.KeepsIds (fetch events))
    {eventId : EventId} {value : CanonicalJsonObject}
    (named : surroundings.HasId createEvent eventId value)
    (authEventsKnown : Bool) :
    Keeps surroundings.KeepsIds
      (surroundings.handleOutlierWith fetch createEvent roomId eventId value
        authEventsKnown) := by
  refine (Keeps.refuseIf _ _).bind fun _ => ?_
  cases inVersion : surroundings.roomVersionId createEvent.content with
  | none => exact Keeps.throw _
  | some version =>
      refine (yields_verifiedPdu hashes eventId
        (removeField "unsigned" value)).keeps_bind
          fun verified isVerified => ?_
      have isNamed : surroundings.computedId version
          (insertField "event_id" (.str eventId) verified) =
            some eventId := by
        rw [computedId_insertField, isVerified, computedId_unsigned hashes,
          named version inVersion]
      cases decoded : surroundings.decodePdu
          (insertField "event_id" (.str eventId) verified) with
      | none =>
          simp only [decoded]
          exact Keeps.throw _
      | some pduEvent =>
          simp only [decoded]
          have sameId : pduEvent.eventId = eventId :=
            decodePdu_eventId decoded (lookup_insertField _ _ _)
          refine (Keeps.liftExcept _).bind fun _ => ?_
          refine (keeps_localAuthEvents _ _).bind fun localEvents => ?_
          refine (keeps_fetchMissing fetches _ _).bind fun fetched => ?_
          refine (Keeps.refuseIf _ _).bind fun _ => ?_
          refine (Keeps.liftExcept _).bind fun byKey => ?_
          refine (Keeps.liftExcept _).bind fun _ => ?_
          rw [sameId]
          exact (keeps_addPduOutlier isNamed).bind fun _ => Keeps.pure _

theorem keeps_handleOutlierPdu (hashes : surroundings.HashesRedacted)
    (rounds : Nat) {eventId : EventId} {value : CanonicalJsonObject}
    (named : surroundings.HasId createEvent eventId value)
    (authEventsKnown : Bool) :
    Keeps surroundings.KeepsIds
      (surroundings.handleOutlierPdu origin createEvent roomId rounds eventId
        value authEventsKnown) := by
  induction rounds generalizing eventId value authEventsKnown with
  | zero => exact Keeps.throw _
  | succ rounds inductionHypothesis =>
      refine keeps_handleOutlierWith hashes ?_ named authEventsKnown
      intro events
      exact keeps_fetchAndHandleOutliers honest rounds
        (fun nextId value isNamed => inductionHypothesis isNamed true) events

end

inductive Call where
  | handleIncoming (origin : ServerName) (createEvent : Pdu) (roomId : RoomId)
      (rounds : Nat) (eventId : EventId) (value : CanonicalJsonObject)
  | fetchMissing (origin : ServerName) (createEvent : Pdu) (roomId : RoomId)
      (rounds : Nat) (events : List EventId)
  | append (eventId : EventId)

end Surroundings

def World.empty : World where
  timeline := fun _ => none
  outliers := fun _ => none
  tries := fun _ => none
  asked := 0
  stored := []

namespace Surroundings

def appendOutlier (world : World) (eventId : EventId) : World :=
  match world.outliers eventId with
  | none => world
  | some pdu =>
      { world with
        timeline := Function.update world.timeline eventId (some pdu)
        outliers := Function.update world.outliers eventId none }

def step (surroundings : Surroundings) (world : World) : Call → World × Unit
  | .handleIncoming origin createEvent roomId rounds eventId value =>
      (ended (surroundings.handleOutlierPdu origin createEvent roomId rounds
        eventId value false world), ())
  | .fetchMissing origin createEvent roomId rounds events =>
      (ended (surroundings.fetchAndHandleOutliers origin createEvent rounds
        (fun nextId value => surroundings.handleOutlierPdu origin createEvent
          roomId rounds nextId value true) events world), ())
  | .append eventId => (appendOutlier world eventId, ())

/-- An event that comes in has the id it is handled under, and the other servers
answer with the events that are asked for. -/
def Genuine (surroundings : Surroundings) : Call → Prop
  | .handleIncoming _ createEvent _ _ eventId value =>
      surroundings.HasId createEvent eventId value ∧
        surroundings.AnswersAsAsked createEvent
  | .fetchMissing _ createEvent _ _ _ =>
      surroundings.AnswersAsAsked createEvent
  | .append _ => True

variable {surroundings : Surroundings}

theorem ownIds_empty : surroundings.OwnIds empty := by
  refine ⟨?_, ?_⟩
  · intro stored member
    cases member
  · intro eventId pdu row
    cases row

theorem OwnIds.appendOutlier {world : World}
    (own : surroundings.OwnIds world) (eventId : EventId) :
    surroundings.OwnIds (appendOutlier world eventId) := by
  unfold Surroundings.appendOutlier
  split
  · exact own
  · refine ⟨own.written, ?_⟩
    intro other pdu row
    exact own.rows other pdu (update_none_eq_some row)

theorem OwnIds.step (hashes : surroundings.HashesRedacted) {world : World}
    (own : surroundings.OwnIds world) {call : Call}
    (genuine : surroundings.Genuine call) :
    surroundings.OwnIds (surroundings.step world call).1 := by
  cases call with
  | handleIncoming origin createEvent roomId rounds eventId value =>
      exact keeps_handleOutlierPdu genuine.2 hashes rounds genuine.1 false
        world own
  | fetchMissing origin createEvent roomId rounds events =>
      exact keeps_fetchAndHandleOutliers genuine rounds
        (fun nextId value named =>
          keeps_handleOutlierPdu genuine hashes rounds named true) events
        world own
  | append eventId => exact own.appendOutlier eventId

/-- Along a run in which every event that comes in and every answer of another
server has the id it is handled under, outliers are stored under their computed
ids only. -/
theorem ownIds_of_genuine (hashes : surroundings.HashesRedacted)
    {history : List (Entry World Call Unit)} {world : World}
    (reaches : Reaches surroundings.step empty history world)
    (genuine : Always (fun _ entry => surroundings.Genuine entry.input)
      history) : surroundings.OwnIds world :=
  reaches.invariant (fun _ state => surroundings.OwnIds state) ownIds_empty
    (fun _ _ _ own genuine => own.step hashes genuine) genuine

end Surroundings

def isKept (name : String) : Bool :=
  ["auth_events", "content", "depth", "event_id", "hashes",
    "origin_server_ts", "prev_events", "room_id", "sender", "signatures",
    "state_key", "type"].contains name

def fieldText (fields : CanonicalJsonObject) (name : String) : String :=
  ((fields.lookup name).bind Json.asStr).getD ""

def plainHash (fields : CanonicalJsonObject) : String :=
  fieldText fields "type" ++ fieldText fields "state_key" ++
    fieldText fields "sender" ++ fieldText fields "room_id"

def plainVersion (content : Json) : RoomVersionId :=
  match stringField content "room_version" with
  | some "11" => .v11
  | _ => .v1

def plainSurroundings (getEvent : EventId → Option Json) : Surroundings where
  ruma := plainRuma
  validServerName := fun name => !name.isEmpty
  roomVersionId := fun content => some (plainVersion content)
  serializedLength := fun _ => some 512
  referenceHash := fun fields _ => some (plainHash fields)
  redact := fun fields _ => some (fields.filter (fun field => isKept field.1))
  verifyEvent := fun _ _ _ => some .all
  getEvent := fun _ _ eventId => getEvent eventId
  continueBackoff := fun _ _ => false

theorem lookup_filter_name {keep : String → Bool} {name : String}
    (kept : keep name = true) (fields : CanonicalJsonObject) :
    (fields.filter (fun field => keep field.1)).lookup name =
      fields.lookup name := by
  induction fields with
  | nil => rfl
  | cons field rest inductionHypothesis =>
      obtain ⟨other, value⟩ := field
      by_cases same : name = other
      · subst same
        simp [kept]
      · have skipped : (name == other) = false := by simpa using same
        by_cases stays : keep other = true
        · simp [stays, lookup_cons, skipped, inductionHypothesis]
        · simp [stays, lookup_cons, skipped, inductionHypothesis]

theorem plainHash_filter (keep : String → Bool) (fields : CanonicalJsonObject)
    (kept : ["type", "state_key", "sender", "room_id"].all keep = true) :
    plainHash (fields.filter (fun field => keep field.1)) =
      plainHash fields := by
  simp only [all_cons, all_nil, Bool.and_true, Bool.and_eq_true] at kept
  obtain ⟨type, stateKey, sender, roomId⟩ := kept
  simp only [plainHash, fieldText, lookup_filter_name type,
    lookup_filter_name stateKey, lookup_filter_name sender,
    lookup_filter_name roomId]

theorem plainSurroundings_hashesRedacted (getEvent : EventId → Option Json) :
    (plainSurroundings getEvent).HashesRedacted := by
  refine ⟨?_, ?_⟩
  · intro fields version
    exact congrArg some
      (plainHash_filter (fun name => name ≠ "unsigned") fields (by decide))
  · intro fields redacted version isRedacted
    cases Option.some.inj isRedacted
    have withoutId : ∀ fields,
        plainHash (removeField "event_id" fields) = plainHash fields := by
      intro fields
      exact plainHash_filter (fun name => name ≠ "event_id") fields (by decide)
    refine congrArg some ?_
    rw [withoutId, withoutId]
    exact plainHash_filter isKept fields (by decide)

def createFields : CanonicalJsonObject :=
  [("auth_events", .arr []),
    ("content", .obj [("room_version", .str "11")]),
    ("depth", .int 1),
    ("hashes", .obj [("sha256", .str "")]),
    ("origin_server_ts", .int 0),
    ("prev_events", .arr []),
    ("room_id", .str "!room:a"),
    ("sender", .str "@alice:a"),
    ("state_key", .str ""),
    ("type", .str "m.room.create")]

def createId : EventId := "$m.room.create@alice:a!room:a"

def createPdu : Pdu :=
  { Pdu.message createId "!room:a" "@alice:a" with
    kind := .roomCreate, content := .obj [("room_version", .str "11")],
    stateKey := some "" }

/-- A server that answers with the create event, whatever is asked for. -/
def swapping : Surroundings :=
  plainSurroundings (fun _ => some (.obj createFields))

def honestServer : Surroundings :=
  plainSurroundings (fun eventId =>
    if eventId = createId then some (.obj createFields) else none)

def fetchOne (eventId : EventId) : List Surroundings.Call :=
  [.fetchMissing "b" createPdu "!room:a" 3 [eventId]]

theorem honestServer_ownIds :
    ((run honestServer.step empty (fetchOne createId)).2.outliers
        createId).isSome = true ∧
      honestServer.OwnIds
        (run honestServer.step empty (fetchOne createId)).2 := by
  refine ⟨by decide, Surroundings.ownIds_of_genuine
    (plainSurroundings_hashesRedacted _)
    (reaches_run honestServer.step empty (fetchOne createId))
    (Always.of_forall_mem ?_)⟩
  intro entry member
  cases mem_singleton.mp member
  intro asked origin nextId value answered version _
  have isCreate : nextId = createId ∧ value = createFields := by
    simp only [plainSurroundings] at answered
    split at answered
    · rename_i isAsked
      cases answered
      exact ⟨isAsked, rfl⟩
    · cases answered
  rw [isCreate.1, isCreate.2]
  rfl

theorem swapping_stores_other_event : Reaches swapping.step empty
        (run swapping.step empty (fetchOne "$asked")).1
        (run swapping.step empty (fetchOne "$asked")).2 ∧
      ((run swapping.step empty (fetchOne "$asked")).2.outliers
        "$asked").bind (swapping.computedId .v11) = some createId ∧
      ¬ swapping.OwnIds
        (run swapping.step empty (fetchOne "$asked")).2 := by
  refine ⟨reaches_run _ _ _, by decide, ?_⟩
  intro own
  have listed : ("$asked", some createId) ∈
      (run swapping.step empty (fetchOne "$asked")).2.stored.map
        (fun stored => (stored.eventId,
          swapping.computedId stored.version stored.pdu)) := by
    decide
  obtain ⟨stored, member, isListed⟩ := mem_map.mp listed
  obtain ⟨isAsked, isCreate⟩ := Prod.mk.inj isListed
  have written := own.written stored member
  rw [isAsked, isCreate] at written
  exact absurd (Option.some.inj written) (by decide)

end ArcanaServer.EventHandler
