import ArcanaServer.EventHandler.OutlierIds
import ArcanaServer.StateRes.FailingUnwraps

namespace ArcanaServer.EventHandler

open Library ArcanaServer.Matrix StateRes List Prod Raises RoomVersion

def Returned {α : Type} : EStateM.Result HandlerError World α → Prop
  | .ok _ _ => True
  | .error error _ => error.isReturned = true

instance {α : Type} (result : EStateM.Result HandlerError World α) :
    Decidable (Returned result) :=
  match result with
  | .ok _ _ => isTrue trivial
  | .error error _ => inferInstanceAs (Decidable (error.isReturned = true))

section

variable {α β : Type} {world : World}

theorem not_returned_iff {result : EStateM.Result HandlerError World α} :
    ¬ Returned result ↔ ∃ error after, error.isReturned = false ∧
        result = .error error after := by
  cases result with
  | ok value after =>
      refine iff_of_false (not_not.mpr trivial) ?_
      intro ⟨error, after, _, failed⟩
      cases failed
  | error error after =>
      have same : Returned (.error error after : EStateM.Result _ _ α) ↔
          error.isReturned = true := Iff.rfl
      rw [same]
      constructor
      · intro unreturned
        exact ⟨error, after, by simpa using unreturned, rfl⟩
      · intro ⟨_, _, unreturned, same⟩
        cases same
        simp [unreturned]

variable {next : α → Handling β}

theorem not_returned_bind_iff {first : Handling α} :
    ¬ Returned ((first >>= next) world) ↔ ¬ Returned (first world) ∨
      ∃ value middle, first world = .ok value middle ∧
        ¬ Returned (next value middle) := by
  cases result : first world with
  | ok value middle =>
      rw [bind_of_ok next result]
      constructor
      · intro fails
        exact .inr ⟨value, middle, rfl, fails⟩
      · intro fails
        rcases fails with fails | fails
        · exact absurd trivial fails
        · obtain ⟨_, _, same, fails⟩ := fails
          cases same
          exact fails
  | error error middle =>
      rw [bind_of_error next result]
      simp [Returned]

theorem returned_of_raises {action : Handling α}
    (raises : Raises (fun error => error.isReturned = true) action)
    (world : World) : Returned (action world) := by
  cases result : action world with
  | ok value after => exact trivial
  | error error after => exact raises.error result

theorem not_returned_raises_bind_iff {first : Handling α}
    (raises : Raises (fun error => error.isReturned = true) first) :
    ¬ Returned ((first >>= next) world) ↔
      ∃ value middle, first world = .ok value middle ∧
        ¬ Returned (next value middle) := by
  rw [not_returned_bind_iff]
  exact or_iff_right (not_not.mpr (returned_of_raises raises world))

theorem not_returned_lift_iff {computation : Except HandlerError α} :
    ¬ Returned ((liftExcept computation : Handling α) world) ↔
      ∃ error : HandlerError, error.isReturned = false ∧
        computation = .error error := by
  cases computation with
  | ok value =>
      refine iff_of_false (not_not.mpr trivial) ?_
      intro ⟨error, _, failed⟩
      cases failed
  | error error =>
      have same : Returned ((liftExcept (.error error) : Handling α) world) ↔
          error.isReturned = true := Iff.rfl
      rw [same]
      simp

theorem not_returned_lift_bind_iff {computation : Except HandlerError α} :
    ¬ Returned ((liftExcept computation >>= next) world) ↔
      (∃ error : HandlerError, error.isReturned = false ∧
        computation = .error error) ∨
      ∃ value, computation = .ok value ∧ ¬ Returned (next value world) := by
  rw [not_returned_bind_iff, not_returned_lift_iff]
  refine or_congr_right ?_
  constructor
  · intro ⟨value, middle, result, fails⟩
    obtain ⟨computed, same⟩ := liftExcept_ok result
    subst same
    exact ⟨value, computed, fails⟩
  · intro ⟨value, computed, fails⟩
    exact ⟨value, world, by rw [computed]; rfl, fails⟩

theorem not_returned_refuse_bind_iff {refused : Bool} {error : HandlerError}
    {next : Unit → Handling β} (returned : error.isReturned = true) :
    ¬ Returned ((refuseIf refused error >>= next) world) ↔
      refused = false ∧ ¬ Returned (next () world) := by
  rw [not_returned_raises_bind_iff (refuseIf returned)]
  constructor
  · intro ⟨value, middle, result, fails⟩
    obtain ⟨passes, same⟩ := refuseIf_ok result
    subst same
    exact ⟨passes, fails⟩
  · intro ⟨passes, fails⟩
    exact ⟨(), world, by rw [passes]; rfl, fails⟩

end

def InRoom (roomId : RoomId) (pdu : Pdu) : Prop :=
  ∀ claimed, pdu.roomId = some claimed → claimed = roomId

theorem checkRoomId_ok_iff {roomId : RoomId} {pdu : Pdu} :
    checkRoomId roomId pdu = .ok () ↔ InRoom roomId pdu := by
  unfold checkRoomId InRoom
  cases pdu.roomId with
  | none => simp
  | some claimed => by_cases same : claimed = roomId <;> simp [same]

theorem checkRoomId_isReturned {roomId : RoomId} {pdu : Pdu}
    {error : HandlerError} (failed : checkRoomId roomId pdu = .error error) :
    error.isReturned = true := by
  unfold checkRoomId at failed
  split at failed
  · cases failed
  · split at failed
    · cases failed
      rfl
    · cases failed

namespace Surroundings

/-- The event under the id is at hand, in the room and a state event with this
type and state key. -/
structure CitesState (roomId : RoomId) (authEvents : AuthEvents)
    (authId : EventId) (entry : TypeStateKey × Pdu) : Prop where
  found : authEvents.reverse.lookup authId = some entry.2
  inRoom : InRoom roomId entry.2
  kind : entry.2.kind = entry.1.1
  stateKey : entry.2.stateKey = some entry.1.2

def CitesMessage (roomId : RoomId) (authEvents : AuthEvents)
    (authId : EventId) : Prop :=
  ∃ authEvent, authEvents.reverse.lookup authId = some authEvent ∧
    InRoom roomId authEvent ∧ authEvent.stateKey = none

section

variable {roomId : RoomId} {authEvents : AuthEvents} {authId : EventId}
  {authIds rest : List EventId} {byKey : List (TypeStateKey × Pdu)}

theorem authEventsByKey_of_cites {entry : TypeStateKey × Pdu}
    (cites : CitesState roomId authEvents authId entry) :
    authEventsByKey roomId authEvents (authId :: rest) byKey =
      if entry.1 ∈ byKey.map fst then
        .error (.repeatedAuthKey entry.1.1 entry.1.2)
      else authEventsByKey roomId authEvents rest (byKey ++ [entry]) := by
  obtain ⟨⟨kind, stateKey⟩, authEvent⟩ := entry
  obtain ⟨found, inRoom, sameKind, isState⟩ := cites
  dsimp only at found inRoom sameKind isState
  subst sameKind
  rw [authEventsByKey, found]
  simp only [checkRoomId_ok_iff.mpr inRoom, ok_bind, isState]

theorem authEventsByKey_of_message
    (cites : CitesMessage roomId authEvents authId) :
    authEventsByKey roomId authEvents (authId :: rest) byKey =
      .error (.panic "all auth events have state keys") := by
  obtain ⟨authEvent, found, inRoom, absent⟩ := cites
  rw [authEventsByKey, found]
  simp only [checkRoomId_ok_iff.mpr inRoom, ok_bind, absent]

theorem cites_cases (roomId : RoomId)
    (present : authId ∈ authEvents.map fst) :
    (∃ entry, CitesState roomId authEvents authId entry) ∨
    CitesMessage roomId authEvents authId ∨
    ∃ error : HandlerError, error.isReturned = true ∧
      ∀ rest byKey, authEventsByKey roomId authEvents (authId :: rest) byKey =
        .error error := by
  cases found : authEvents.reverse.lookup authId with
  | none =>
      rw [lookup_eq_none_iff] at found
      obtain ⟨listed, member, same⟩ := mem_map.mp present
      have differs := found listed (mem_reverse.mpr member)
      simp [same] at differs
  | some authEvent =>
      cases checked : checkRoomId roomId authEvent with
      | error error =>
          refine .inr (.inr ⟨error, checkRoomId_isReturned checked, ?_⟩)
          intro rest byKey
          rw [authEventsByKey, found]
          simp only [checked]
          rfl
      | ok _ =>
          have inRoom := checkRoomId_ok_iff.mp checked
          cases isState : authEvent.stateKey with
          | none => exact .inr (.inl ⟨authEvent, found, inRoom, isState⟩)
          | some stateKey =>
              exact .inl ⟨((authEvent.kind, stateKey), authEvent), found,
                inRoom, rfl, isState⟩

/-- The ids cite state events, no two of them with the same type and state
key. -/
structure CiteState (roomId : RoomId) (authEvents : AuthEvents)
    (authIds : List EventId) (byKey : List (TypeStateKey × Pdu)) : Prop where
  each : List.Forall₂ (CitesState roomId authEvents) authIds byKey
  distinct : (byKey.map fst).Nodup

theorem nodup_append_entry {entry : TypeStateKey × Pdu} :
    ((byKey ++ [entry]).map fst).Nodup ↔
      (byKey.map fst).Nodup ∧ entry.1 ∉ byKey.map fst := by
  rw [map_append, map_singleton, nodup_append]
  constructor
  · intro ⟨distinct, _, apart⟩
    exact ⟨distinct, fun member =>
      apart entry.1 member entry.1 (mem_singleton_self _) rfl⟩
  · intro ⟨distinct, isNew⟩
    refine ⟨distinct, nodup_singleton _, ?_⟩
    intro key member other last same
    rw [mem_singleton.mp last] at same
    exact isNew (same ▸ member)

theorem nodup_of_append {added : List (TypeStateKey × Pdu)}
    (distinct : ((byKey ++ added).map fst).Nodup) :
    (byKey.map fst).Nodup := by
  rw [map_append] at distinct
  exact distinct.of_append_left

theorem authEventsByKey_append {added : List (TypeStateKey × Pdu)}
    (distinct : ((byKey ++ added).map fst).Nodup)
    (each : List.Forall₂ (CitesState roomId authEvents) authIds added) :
    authEventsByKey roomId authEvents (authIds ++ rest) byKey =
      authEventsByKey roomId authEvents rest (byKey ++ added) := by
  induction each generalizing byKey with
  | nil => rw [nil_append, append_nil]
  | cons cites _ ih =>
      rw [append_cons] at distinct
      have isNew := (nodup_append_entry.mp (nodup_of_append distinct)).2
      rw [cons_append, authEventsByKey_of_cites cites, if_neg isNew,
        ih distinct, ← append_cons]

theorem authEventsByKey_cases (roomId : RoomId) :
    ∀ {byKey : List (TypeStateKey × Pdu)}, (byKey.map fst).Nodup →
      (∀ authId ∈ authIds, authId ∈ authEvents.map fst) →
      (∃ added, ((byKey ++ added).map fst).Nodup ∧
        List.Forall₂ (CitesState roomId authEvents) authIds added) ∨
      (∃ before authId after added, authIds = before ++ authId :: after ∧
        ((byKey ++ added).map fst).Nodup ∧
        List.Forall₂ (CitesState roomId authEvents) before added ∧
        CitesMessage roomId authEvents authId) ∨
      ∃ error : HandlerError, error.isReturned = true ∧
        authEventsByKey roomId authEvents authIds byKey = .error error := by
  induction authIds with
  | nil =>
      intro byKey distinct _
      refine .inl ⟨[], ?_, .nil⟩
      rw [append_nil]
      exact distinct
  | cons authId rest ih =>
      intro byKey distinct present
      rcases cites_cases roomId (present authId mem_cons_self) with
        ⟨entry, cites⟩ | isMessage | ⟨error, returned, fails⟩
      · by_cases known : entry.1 ∈ byKey.map fst
        · refine .inr (.inr ⟨.repeatedAuthKey entry.1.1 entry.1.2, rfl, ?_⟩)
          rw [authEventsByKey_of_cites cites, if_pos known]
        · rcases ih (nodup_append_entry.mpr ⟨distinct, known⟩)
            (fun other later => present other (mem_cons_of_mem _ later))
            with
            ⟨added, later, each⟩ |
            ⟨before, other, after, added, split, later, each, isMessage⟩ |
            ⟨error, returned, fails⟩
          · rw [← append_cons] at later
            exact .inl ⟨entry :: added, later, .cons cites each⟩
          · rw [← append_cons] at later
            refine .inr (.inl ⟨authId :: before, other, after,
              entry :: added, ?_, later, .cons cites each, isMessage⟩)
            rw [split, cons_append]
          · refine .inr (.inr ⟨error, returned, ?_⟩)
            rw [authEventsByKey_of_cites cites, if_neg known]
            exact fails
      · refine .inr (.inl ⟨[], authId, rest, [], rfl, ?_, .nil, isMessage⟩)
        rw [append_nil]
        exact distinct
      · exact .inr (.inr ⟨error, returned, fails rest byKey⟩)

theorem CiteState.ok (state : CiteState roomId authEvents authIds byKey) :
    authEventsByKey roomId authEvents authIds [] = .ok byKey := by
  have whole : authEventsByKey roomId authEvents (authIds ++ []) [] =
      authEventsByKey roomId authEvents [] byKey :=
    authEventsByKey_append state.distinct state.each
  rw [append_nil] at whole
  exact whole

theorem CiteState.panics {before after : List EventId}
    (state : CiteState roomId authEvents before byKey)
    (isMessage : CitesMessage roomId authEvents authId) :
    authEventsByKey roomId authEvents (before ++ authId :: after) [] =
      .error (.panic "all auth events have state keys") := by
  have reaches : authEventsByKey roomId authEvents
      (before ++ authId :: after) [] =
        authEventsByKey roomId authEvents (authId :: after) byKey :=
    authEventsByKey_append state.distinct state.each
  rw [reaches]
  exact authEventsByKey_of_message isMessage

theorem citeState_cases (roomId : RoomId)
    (present : ∀ authId ∈ authIds, authId ∈ authEvents.map fst) :
    (∃ byKey, CiteState roomId authEvents authIds byKey) ∨
    (∃ before authId after byKey, authIds = before ++ authId :: after ∧
      CiteState roomId authEvents before byKey ∧
      CitesMessage roomId authEvents authId) ∨
    ∃ error : HandlerError, error.isReturned = true ∧
      authEventsByKey roomId authEvents authIds [] = .error error := by
  have start : (([] : List (TypeStateKey × Pdu)).map fst).Nodup :=
    nodup_nil
  rcases authEventsByKey_cases roomId start present with
    ⟨added, distinct, each⟩ |
    ⟨before, authId, after, added, split, distinct, each, isMessage⟩ | returns
  · exact .inl ⟨added, each, distinct⟩
  · exact .inr (.inl ⟨before, authId, after, added, split,
      ⟨each, distinct⟩, isMessage⟩)
  · exact .inr (.inr returns)

theorem authEventsByKey_ok_iff
    (present : ∀ authId ∈ authIds, authId ∈ authEvents.map fst) :
    authEventsByKey roomId authEvents authIds [] = .ok byKey ↔
      CiteState roomId authEvents authIds byKey := by
  constructor
  · intro result
    rcases citeState_cases roomId present with
      ⟨whole, state⟩ | ⟨before, authId, after, _, split, state, isMessage⟩ |
      ⟨error, _, fails⟩
    · rw [state.ok] at result
      cases result
      exact state
    · rw [split, state.panics isMessage] at result
      cases result
    · rw [fails] at result
      cases result
  · intro state
    exact state.ok

theorem authEventsByKey_not_returned_iff
    (present : ∀ authId ∈ authIds, authId ∈ authEvents.map fst) :
    (∃ error : HandlerError, error.isReturned = false ∧
        authEventsByKey roomId authEvents authIds [] = .error error) ↔
      ∃ before authId after byKey, authIds = before ++ authId :: after ∧
        CiteState roomId authEvents before byKey ∧
        CitesMessage roomId authEvents authId := by
  constructor
  · intro ⟨error, unreturned, failed⟩
    rcases citeState_cases roomId present with
      ⟨whole, state⟩ | stops | ⟨other, returned, fails⟩
    · rw [state.ok] at failed
      cases failed
    · exact stops
    · rw [fails] at failed
      cases failed
      rw [returned] at unreturned
      cases unreturned
  · intro ⟨before, authId, after, byKey, split, state, isMessage⟩
    rw [split]
    exact ⟨_, rfl, state.panics isMessage⟩

end

section

variable (surroundings : Surroundings)

inductive FailingCheck (createEvent : Pdu) (roomId : RoomId)
    (roomVersionId : RoomVersionId) (pduEvent : Pdu)
    (authEvents : AuthEvents) : Prop
  /-- An auth event of the room is no state event. -/
  | message (before after : List EventId) (authId : EventId)
      (byKey : List (TypeStateKey × Pdu))
      (listed : pduEvent.authEvents = before ++ authId :: after)
      (state : CiteState roomId authEvents before byKey)
      (isMessage : CitesMessage roomId authEvents authId)
  /-- The version of the room is not known to the state resolution. -/
  | version (byKey : List (TypeStateKey × Pdu)) (failure : Failure)
      (state : CiteState roomId authEvents pduEvent.authEvents byKey)
      (unsupported : new roomVersionId = .error failure)
  /-- The auth check itself panics. -/
  | unwrap (byKey : List (TypeStateKey × Pdu)) (roomVersion : RoomVersion)
      (state : CiteState roomId authEvents pduEvent.authEvents byKey)
      (supported : new roomVersionId = .ok roomVersion)
      (unwrap : CheckUnwrap surroundings.ruma roomVersion pduEvent
        (fun kind stateKey => byKey.lookup (kind, stateKey)) createEvent)

variable {surroundings} {createEvent : Pdu} {roomId : RoomId}
  {roomVersionId : RoomVersionId} {incomingPdu : CanonicalJsonObject}
  {pduEvent : Pdu} {authEvents : AuthEvents}

theorem checkAuth_fails_iff (isCreate : createEvent.kind = .roomCreate)
    {byKey : List (TypeStateKey × Pdu)} :
    (∃ error : HandlerError, error.isReturned = false ∧
        surroundings.checkAuth roomVersionId pduEvent byKey createEvent =
          .error error) ↔
      (∃ failure, new roomVersionId = .error failure) ∨
      ∃ roomVersion, new roomVersionId = .ok roomVersion ∧
        CheckUnwrap surroundings.ruma roomVersion pduEvent
          (fun kind stateKey => byKey.lookup (kind, stateKey))
          createEvent := by
  unfold checkAuth
  cases new roomVersionId with
  | error failure =>
      exact iff_of_true ⟨_, rfl, rfl⟩ (.inl ⟨failure, rfl⟩)
  | ok roomVersion =>
      simp only [reduceCtorEq, exists_false, false_or, Except.ok.injEq,
        exists_eq_left']
      rw [← panics_iff_checkUnwrap none isCreate]
      cases authCheck surroundings.ruma roomVersion pduEvent none
        (fun kind stateKey => byKey.lookup (kind, stateKey)) createEvent with
      | ok passed => cases passed <;> simp [Panics, HandlerError.isReturned]
      | error failure =>
          cases failure with
          | error error => simp [Panics, HandlerError.isReturned]
          | panic message =>
              exact iff_of_true ⟨_, rfl, rfl⟩ ⟨message, rfl⟩

/-- Once every auth event is at hand, the rest of the handling returns unless
one of the checks fails to. -/
theorem authorize_fails_iff (isCreate : createEvent.kind = .roomCreate)
    {world : World} :
    ¬ Returned (surroundings.authorize createEvent roomId roomVersionId
        incomingPdu pduEvent authEvents world) ↔
      (∀ authId ∈ pduEvent.authEvents, authId ∈ authEvents.map fst) ∧
      surroundings.FailingCheck createEvent roomId roomVersionId pduEvent
        authEvents := by
  have complete : (decide (pduEvent.authEvents.filter
        (fun id => id ∉ authEvents.map fst) ≠ []) = false) ↔
      ∀ authId ∈ pduEvent.authEvents, authId ∈ authEvents.map fst := by
    simp [filter_eq_nil_iff]
  have writes : ∀ world, Returned ((do
      addPduOutlier roomVersionId pduEvent.eventId incomingPdu
      return (pduEvent, incomingPdu) :
        Handling (Pdu × CanonicalJsonObject)) world) := fun _ => trivial
  unfold authorize
  rw [not_returned_refuse_bind_iff rfl, complete]
  refine and_congr_right fun present => ?_
  rw [not_returned_lift_bind_iff, authEventsByKey_not_returned_iff present]
  simp only [authEventsByKey_ok_iff present, not_returned_lift_bind_iff,
    checkAuth_fails_iff isCreate, writes, not_true_eq_false, and_false,
    exists_false, or_false]
  constructor
  · intro fails
    rcases fails with
      ⟨before, authId, after, byKey, listed, state, isMessage⟩ |
      ⟨byKey, state, ⟨failure, unsupported⟩ | ⟨version, supported, unwrap⟩⟩
    · exact .message before after authId byKey listed state isMessage
    · exact .version byKey failure state unsupported
    · exact .unwrap byKey version state supported unwrap
  · intro fails
    cases fails with
    | message before after authId byKey listed state isMessage =>
        exact .inl ⟨before, authId, after, byKey, listed, state, isMessage⟩
    | version byKey failure state unsupported =>
        exact .inr ⟨byKey, state, .inl ⟨failure, unsupported⟩⟩
    | unwrap byKey version state supported unwrap =>
        exact .inr ⟨byKey, state, .inr ⟨version, supported, unwrap⟩⟩

end

end Surroundings

open Library ArcanaServer.Matrix StateRes Raises

/-! Whether an event can be handled as an outlier without a panic. -/

namespace Surroundings

/-- An event that came in, decoded, with its auth events that are stored. -/
structure Prepared where
  roomVersionId : RoomVersionId
  incomingPdu : CanonicalJsonObject
  pduEvent : Pdu
  localEvents : AuthEvents

def Prepared.missing (prepared : Prepared) (authEventsKnown : Bool) :
    List EventId :=
  missingAuthEvents prepared.pduEvent authEventsKnown prepared.localEvents

def Prepared.authEvents (prepared : Prepared) (fetched : List Handled) :
    AuthEvents :=
  prepared.localEvents ++
    fetched.map (fun handled => (handled.1.eventId, handled.1))

structure Task where
  eventId : EventId
  value : CanonicalJsonObject
  authEventsKnown : Bool

section

variable (surroundings : Surroundings) (origin : ServerName)
  (createEvent : Pdu) (roomId : RoomId)

def prepare (task : Task) : Handling Prepared := do
  refuseIf (!surroundings.pduFits task.value) .tooLarge
  let value := removeField "unsigned" task.value
  match surroundings.roomVersionId createEvent.content with
  | none => throw .noRoomVersion
  | some roomVersionId =>
      let verified ← surroundings.verifiedPdu task.eventId roomVersionId value
      let incomingPdu := insertField "event_id" (.str task.eventId) verified
      match surroundings.decodePdu incomingPdu with
      | none => throw .badJson
      | some pduEvent =>
          liftExcept (checkRoomId roomId pduEvent)
          let localEvents ←
            surroundings.localAuthEvents roomId pduEvent.authEvents []
          return { roomVersionId, incomingPdu, pduEvent, localEvents }

variable {surroundings createEvent roomId} in
theorem handleOutlierWith_eq (fetch : List EventId → Handling (List Handled))
    (task : Task) :
    surroundings.handleOutlierWith fetch createEvent roomId task.eventId
        task.value task.authEventsKnown =
      (do
        let prepared ← surroundings.prepare createEvent roomId task
        let fetched ← fetchMissing fetch task.authEventsKnown
          (prepared.missing task.authEventsKnown)
        surroundings.authorize createEvent roomId prepared.roomVersionId
          prepared.incomingPdu prepared.pduEvent
          (prepared.authEvents fetched)) := by
  unfold handleOutlierWith prepare
  rw [bind_assoc]
  congr 1
  funext _
  cases surroundings.roomVersionId createEvent.content with
  | none => rfl
  | some roomVersionId =>
      dsimp only
      rw [bind_assoc]
      congr 1
      funext verified
      cases surroundings.decodePdu
        (insertField "event_id" (.str task.eventId) verified) with
      | none => rfl
      | some pduEvent =>
          simp only [bind_assoc, pure_bind]
          rfl

theorem raises_verifiedPdu (eventId : EventId) (roomVersionId : RoomVersionId)
    (value : CanonicalJsonObject) :
    Raises (fun error => error.isReturned = true)
      (surroundings.verifiedPdu eventId roomVersionId value) := by
  refine bind (fun _ => trivial) fun verified => ?_
  split
  · exact pure _
  · split
    · exact throw rfl
    · refine bind (fun _ => trivial) fun world => ?_
      exact bind (refuseIf rfl) fun _ => pure _
  · exact throw rfl

theorem raises_localAuthEvents (authIds : List EventId)
    (authEvents : AuthEvents) :
    Raises (fun error => error.isReturned = true)
      (surroundings.localAuthEvents roomId authIds authEvents) := by
  induction authIds generalizing authEvents with
  | nil => exact pure _
  | cons authId rest ih =>
      refine bind (fun _ => trivial) fun world => ?_
      split
      · exact ih authEvents
      · refine bind (liftExcept ?_) fun _ => ih _
        intro error failed
        exact checkRoomId_isReturned failed

theorem raises_prepare (task : Task) :
    Raises (fun error => error.isReturned = true)
      (surroundings.prepare createEvent roomId task) := by
  refine bind (refuseIf rfl) fun _ => ?_
  split
  · exact throw rfl
  · refine bind (surroundings.raises_verifiedPdu _ _ _) fun _ => ?_
    dsimp only
    split
    · exact throw rfl
    · refine bind (liftExcept ?_) fun _ => ?_
      · intro error failed
        exact checkRoomId_isReturned failed
      · refine bind (surroundings.raises_localAuthEvents _ _ _) fun _ => ?_
        exact pure _

theorem raises_backingOff {condition : HandlerError → Prop}
    (eventId : EventId) :
    Raises condition (surroundings.backingOff eventId) := by
  refine bind (fun _ => trivial) fun world => ?_
  cases world.tries eventId with
  | none => exact pure _
  | some tries => exact fun _ => trivial

theorem raises_fetchUnknown (fetched : List EventId) (nextId : EventId) :
    Raises (fun error => error = .outOfRounds)
      (surroundings.fetchUnknown origin createEvent fetched nextId) := by
  have backs : ∀ eventId : EventId,
      Raises (fun error => error = .outOfRounds) (do
        backOff eventId
        return (none : Option CanonicalJsonObject)) :=
    fun _ _ => trivial
  refine bind (surroundings.raises_backingOff nextId) fun waiting => ?_
  split
  · exact pure _
  split
  · exact pure _
  refine bind (fun _ => trivial) fun world => ?_
  split
  · exact pure _
  refine bind (fun _ => trivial) fun answer => ?_
  split
  · exact backs nextId
  · dsimp only
    split
    · exact backs nextId
    · exact pure _

theorem raises_gather (rounds : Nat) (id : EventId) :
    Raises (fun error => error = .outOfRounds)
      (surroundings.gather origin createEvent rounds id) := by
  have walks : ∀ rounds todo events, Raises (fun error => error = .outOfRounds)
        (surroundings.fetchAuthChain origin createEvent rounds todo
          events) := by
    intro rounds
    induction rounds with
    | zero => exact fun _ _ => throw rfl
    | succ rounds ih =>
        intro todo events
        cases todo with
        | nil => exact pure _
        | cons nextId todo =>
            refine bind
              (surroundings.raises_fetchUnknown origin createEvent _ nextId)
              fun fetched => ?_
            cases fetched with
            | none => exact ih todo events
            | some value => exact ih _ _
  refine bind (fun _ => trivial) fun world => ?_
  split
  · exact pure _
  · exact bind (walks rounds [id] []) fun events => pure _

inductive NextHandled (handle : EventId → CanonicalJsonObject →
      Handling (Pdu × CanonicalJsonObject))
    (found : List Gathered) (world : World)
    (event : EventId × CanonicalJsonObject) (next : World) : Prop
  | intro {before after : List Gathered} {gathered : Gathered}
      {earlier later : List (EventId × CanonicalJsonObject)}
      {pdus handled : List Handled} {middle last : World}
      (isFound : found = before ++ gathered :: after)
      (isListed : gathered.eventsInReverseOrder.reverse =
        earlier ++ event :: later)
      (foundBefore : before.foldlM (surroundings.handleGathered handle) []
        world = .ok pdus middle)
      (listedBefore : earlier.foldlM
        (surroundings.handleFetched handle gathered.id)
        (match gathered.localPdu with
          | some localPdu => pdus ++ [(localPdu, none)]
          | none => pdus) middle = .ok handled last)
      (tried : surroundings.backingOff event.1 last = .ok false next)

variable {surroundings}

variable
  {handle : EventId → CanonicalJsonObject → Handling (Pdu ×
    CanonicalJsonObject)} {world : World}

theorem handleFetched_error_iff {id : EventId} {pdus : List Handled}
    {event : EventId × CanonicalJsonObject} {after : World}
    {error : HandlerError} (unreturned : error.isReturned = false) :
    surroundings.handleFetched handle id pdus event world = .error error after ↔
      ∃ next, surroundings.backingOff event.1 world = .ok false next ∧
        handle event.1 event.2 next = .error error after := by
  unfold handleFetched
  rw [bind_error_iff]
  constructor
  · intro failed
    rcases failed with failed | failed
    · have never : Raises (fun _ => False)
          (surroundings.backingOff event.1) :=
        surroundings.raises_backingOff event.1
      exact (never.error failed).elim
    · obtain ⟨waiting, next, tried, failed⟩ := failed
      cases waiting with
      | true => cases failed
      | false =>
          simp only [Bool.false_eq_true, if_false] at failed
          obtain ⟨raised, middle, raises, caught⟩ :=
            tryCatch_error_iff.mp failed
          -- What is returned is caught, so the error is the handler's own.
          have rethrown : raised = error ∧ middle = after := by
            split at caught
            · cases caught
            · cases caught
              exact ⟨rfl, rfl⟩
          obtain ⟨rfl, rfl⟩ := rethrown
          rcases bind_error_iff.mp raises with raises | answered
          · exact ⟨next, tried, raises⟩
          · obtain ⟨_, _, _, raises⟩ := answered
            cases raises
  · intro ⟨next, tried, failed⟩
    refine .inr ⟨false, next, tried, ?_⟩
    simp only [Bool.false_eq_true, if_false]
    refine tryCatch_error_iff.mpr ⟨error, after, ?_, ?_⟩
    · exact bind_error_iff.mpr (.inl failed)
    · rw [unreturned]
      rfl

theorem handleAll_fails_iff {found : List Gathered} :
    ¬ Returned (found.foldlM (surroundings.handleGathered handle) [] world) ↔
      ∃ event next, surroundings.NextHandled handle found world event next ∧
        ¬ Returned (handle event.1 event.2 next) := by
  simp only [not_returned_iff]
  constructor
  · intro ⟨error, after, unreturned, failed⟩
    obtain ⟨before, gathered, _, pdus, middle, isFound, foundBefore, failed⟩ :=
      foldlM_error_iff.mp failed
    obtain ⟨earlier, event, later, handled, last, isListed, listedBefore,
      failed⟩ := foldlM_error_iff.mp failed
    obtain ⟨next, tried, failed⟩ :=
      (handleFetched_error_iff unreturned).mp failed
    exact ⟨event, next, .intro isFound isListed foundBefore listedBefore tried,
      error, after, unreturned, failed⟩
  · intro ⟨event, next, isNext, error, after, unreturned, failed⟩
    obtain ⟨isFound, isListed, foundBefore, listedBefore, tried⟩ := isNext
    refine ⟨error, after, unreturned, ?_⟩
    refine foldlM_error_iff.mpr ⟨_, _, _, _, _, isFound, foundBefore, ?_⟩
    refine foldlM_error_iff.mpr ⟨_, _, _, _, _, isListed, listedBefore, ?_⟩
    exact (handleFetched_error_iff unreturned).mpr ⟨next, tried, failed⟩

theorem gatherAll_fails_iff {rounds : Nat} {events : List EventId} :
    ¬ Returned (events.mapM (surroundings.gather origin createEvent rounds)
        world) ↔
      ∃ after, events.mapM (surroundings.gather origin createEvent rounds)
        world = .error .outOfRounds after := by
  rw [not_returned_iff]
  constructor
  · intro ⟨error, after, _, failed⟩
    have isOut : error = .outOfRounds :=
      (mapM (surroundings.raises_gather origin createEvent rounds)
        events).error failed
    exact ⟨after, isOut ▸ failed⟩
  · intro ⟨after, failed⟩
    exact ⟨.outOfRounds, after, rfl, failed⟩

theorem fetchAndHandleOutliers_fails_iff {rounds : Nat} {events : List EventId} :
    ¬ Returned (surroundings.fetchAndHandleOutliers origin createEvent rounds
        handle events world) ↔
      (∃ after, events.mapM (surroundings.gather origin createEvent rounds)
        world = .error .outOfRounds after) ∨
      ∃ found middle,
        events.mapM (surroundings.gather origin createEvent rounds) world =
          .ok found middle ∧
        ∃ event next, surroundings.NextHandled handle found middle event next ∧
          ¬ Returned (handle event.1 event.2 next) := by
  unfold fetchAndHandleOutliers
  simp only [not_returned_bind_iff, gatherAll_fails_iff, handleAll_fails_iff]

variable (surroundings)

def fetchWithin (rounds : Nat) :
    List EventId → Handling (List Handled) :=
  surroundings.fetchAndHandleOutliers origin createEvent rounds
    (fun nextId value => surroundings.handleOutlierPdu origin createEvent
      roomId rounds nextId value true)

inductive Asks (task : Task) (world : World) (missing : List EventId)
    (asking : World) : Prop
  | intro {prepared : Prepared}
      (prepares : surroundings.prepare createEvent roomId task world =
        .ok prepared asking)
      (isMissing : prepared.missing task.authEventsKnown = missing)
      (asks : missing ≠ [] ∨ !task.authEventsKnown)

structure Attempt where
  rounds : Nat
  task : Task
  world : World

/-- The calls that are made within a call, itself among them: each fetched event
whose turn comes is handled in turn. -/
inductive Within : Attempt → Attempt → Prop
  | own {attempt : Attempt} : Within attempt attempt
  | fetched {rounds : Nat} {task : Task} {world asking middle next : World}
      {missing : List EventId} {found : List Gathered}
      {event : EventId × CanonicalJsonObject} {inner : Attempt}
      (asks : surroundings.Asks createEvent roomId task world missing asking)
      (isFound : missing.mapM
        (surroundings.gather origin createEvent rounds) asking =
          .ok found middle)
      (isNext : surroundings.NextHandled
        (fun nextId value => surroundings.handleOutlierPdu origin createEvent
          roomId rounds nextId value true) found middle event next)
      (within : Within ⟨rounds, ⟨event.1, event.2, true⟩, next⟩ inner) :
      Within ⟨rounds + 1, task, world⟩ inner

/-- The rounds are not enough for the call to come to its end: events are
fetched for events that were fetched, too deep or too many. -/
inductive RunsOut : Attempt → Prop
  | depth {task : Task} {world : World} : RunsOut ⟨0, task, world⟩
  | walk {rounds : Nat} {task : Task} {world asking after : World}
      {missing : List EventId}
      (asks : surroundings.Asks createEvent roomId task world missing asking)
      (endless : missing.mapM
        (surroundings.gather origin createEvent rounds) asking =
          .error .outOfRounds after) :
      RunsOut ⟨rounds + 1, task, world⟩

/-- The event of the call has all of its auth events together, and one of the
checks against them fails to return. -/
inductive FailsCheck : Attempt → Prop
  | intro {rounds : Nat} {task : Task} {world asking middle : World}
      {prepared : Prepared} {fetched : List Handled}
      (prepares : surroundings.prepare createEvent roomId task world =
        .ok prepared asking)
      (fetches : fetchMissing
        (surroundings.fetchWithin origin createEvent roomId rounds)
        task.authEventsKnown (prepared.missing task.authEventsKnown) asking =
          .ok fetched middle)
      (present : ∀ authId ∈ prepared.pduEvent.authEvents,
        authId ∈ (prepared.authEvents fetched).map fst)
      (fails : surroundings.FailingCheck createEvent roomId
        prepared.roomVersionId prepared.pduEvent
        (prepared.authEvents fetched)) :
      FailsCheck ⟨rounds + 1, task, world⟩

variable {surroundings origin createEvent roomId}

theorem fetchMissing_fails_iff {fetch : List EventId → Handling (List Handled)}
    {authEventsKnown : Bool} {missing : List EventId} {world : World} :
    ¬ Returned (fetchMissing fetch authEventsKnown missing world) ↔
      (missing ≠ [] ∨ !authEventsKnown) ∧ ¬ Returned (fetch missing world) := by
  unfold fetchMissing
  split
  next asks => exact (and_iff_right asks).symm
  next asks =>
    refine iff_of_false (not_not.mpr trivial) ?_
    intro ⟨missing, _⟩
    exact asks missing

/-- A call does not return just if its rounds run out, or its event fails a
check, or a call for one of the events that it fetches does not return. -/
theorem handleOutlierPdu_fails_iff (isCreate : createEvent.kind = .roomCreate)
    {rounds : Nat} {task : Task} {world : World} :
    ¬ Returned (surroundings.handleOutlierPdu origin createEvent roomId
        (rounds + 1) task.eventId task.value task.authEventsKnown world) ↔
      surroundings.RunsOut origin createEvent roomId ⟨rounds + 1, task, world⟩ ∨
      surroundings.FailsCheck origin createEvent roomId
        ⟨rounds + 1, task, world⟩ ∨
      ∃ missing asking found middle event next,
        surroundings.Asks createEvent roomId task world missing asking ∧
        missing.mapM (surroundings.gather origin createEvent rounds) asking =
          .ok found middle ∧
        surroundings.NextHandled
          (fun nextId value => surroundings.handleOutlierPdu origin
            createEvent roomId rounds nextId value true) found middle event
          next ∧
        ¬ Returned (surroundings.handleOutlierPdu origin createEvent roomId
          rounds event.1 event.2 true next) := by
  have opened : surroundings.handleOutlierPdu origin createEvent roomId
      (rounds + 1) task.eventId task.value task.authEventsKnown = _ :=
    handleOutlierWith_eq
      (surroundings.fetchWithin origin createEvent roomId rounds) task
  rw [opened,
    not_returned_raises_bind_iff (surroundings.raises_prepare createEvent
      roomId task)]
  simp only [not_returned_bind_iff, fetchMissing_fails_iff, fetchWithin,
    fetchAndHandleOutliers_fails_iff, authorize_fails_iff isCreate]
  constructor
  · intro ⟨prepared, asking, prepares, fails⟩
    rcases fails with ⟨asks, ⟨after, endless⟩ |
      ⟨found, middle, isFound, event, next, isNext, fails⟩⟩ |
      ⟨fetched, middle, fetches, present, fails⟩
    · exact .inl (.walk (.intro prepares rfl asks) endless)
    · exact .inr (.inr ⟨_, asking, found, middle, event, next,
        .intro prepares rfl asks, isFound, isNext, fails⟩)
    · exact .inr (.inl (.intro prepares fetches present fails))
  · intro fails
    rcases fails with out | check |
      ⟨_, asking, found, middle, event, next, asks, isFound, isNext, fails⟩
    · cases out with
      | walk asks endless =>
          obtain ⟨prepares, rfl, asks⟩ := asks
          exact ⟨_, _, prepares, .inl ⟨asks, .inl ⟨_, endless⟩⟩⟩
    · obtain ⟨prepares, fetches, present, fails⟩ := check
      exact ⟨_, _, prepares, .inr ⟨_, _, fetches, present, fails⟩⟩
    · obtain ⟨prepares, rfl, asks⟩ := asks
      exact ⟨_, asking, prepares, .inl ⟨asks, .inr
        ⟨found, middle, isFound, event, next, isNext, fails⟩⟩⟩

/-- The call that ends a run is one of those that are made within it. -/
theorem not_returned_iff_within (isCreate : createEvent.kind = .roomCreate)
    (rounds : Nat) (task : Task) (world : World) :
    ¬ Returned (surroundings.handleOutlierPdu origin createEvent roomId rounds
        task.eventId task.value task.authEventsKnown world) ↔
      ∃ inner, surroundings.Within origin createEvent roomId
          ⟨rounds, task, world⟩ inner ∧
        (surroundings.RunsOut origin createEvent roomId inner ∨
          surroundings.FailsCheck origin createEvent roomId inner) := by
  induction rounds generalizing task world with
  | zero =>
      refine iff_of_true ?_ ⟨_, .own, .inl .depth⟩
      intro returned
      cases returned
  | succ rounds ih =>
      rw [handleOutlierPdu_fails_iff isCreate]
      constructor
      · intro fails
        rcases fails with out | check |
          ⟨missing, asking, found, middle, event, next, asks, isFound, isNext,
            fails⟩
        · exact ⟨_, .own, .inl out⟩
        · exact ⟨_, .own, .inr check⟩
        · obtain ⟨inner, within, ends⟩ :=
            (ih ⟨event.1, event.2, true⟩ next).mp fails
          exact ⟨inner, .fetched asks isFound isNext within, ends⟩
      · intro ⟨inner, within, ends⟩
        cases within with
        | own => exact ends.imp_right .inl
        | fetched asks isFound isNext within =>
            exact .inr (.inr ⟨_, _, _, _, _, _, asks, isFound, isNext,
              (ih _ _).mpr ⟨inner, within, ends⟩⟩)

/-- `handle_outlier_pdu` returns just if, among the calls that it makes, itself
included, none runs out of rounds and none fails a check of its event. -/
theorem handleOutlierPdu_returns_iff
    (isCreate : createEvent.kind = .roomCreate) (rounds : Nat)
    (eventId : EventId) (value : CanonicalJsonObject) (authEventsKnown : Bool)
    (world : World) :
    Returned (surroundings.handleOutlierPdu origin createEvent roomId rounds
        eventId value authEventsKnown world) ↔
      ∀ inner, surroundings.Within origin createEvent roomId
          ⟨rounds, ⟨eventId, value, authEventsKnown⟩, world⟩ inner →
        ¬ surroundings.RunsOut origin createEvent roomId inner ∧
        ¬ surroundings.FailsCheck origin createEvent roomId inner := by
  rw [← not_iff_not]
  refine (not_returned_iff_within isCreate rounds
    ⟨eventId, value, authEventsKnown⟩ world).trans ?_
  rw [not_forall]
  refine exists_congr fun inner => ?_
  rw [Classical.not_imp, not_and_or, not_not, not_not]

end

end Surroundings

namespace CitedMessage

def messageFields (authEvents : List EventId) : CanonicalJsonObject :=
  [("auth_events", .arr (authEvents.map .str)),
    ("content", .obj [("body", .str "hello")]),
    ("depth", .int 2),
    ("hashes", .obj [("sha256", .str "")]),
    ("origin_server_ts", .int 1),
    ("prev_events", .arr [.str createId]),
    ("room_id", .str "!room:a"),
    ("sender", .str "@alice:a"),
    ("type", .str "m.room.message")]

def world : World :=
  { World.empty with
    timeline := Function.update (Function.update (fun _ => none) createId
        (some (insertField "event_id" (.str createId) createFields)))
      "$message" (some (insertField "event_id" (.str "$message")
        (messageFields [createId]))) }

def handled (authEvents : List EventId) :
    EStateM.Result HandlerError World (Pdu × CanonicalJsonObject) :=
  (plainSurroundings (fun _ => none)).handleOutlierPdu "b" createPdu "!room:a"
    2 "$incoming" (messageFields authEvents) false world

def panicMessage :
    EStateM.Result HandlerError World (Pdu × CanonicalJsonObject) →
      Option String
  | .error (.panic message) _ => some message
  | _ => none

theorem citedCreate_returns : Returned (handled [createId]) ∧
      ∀ inner, (plainSurroundings (fun _ => none)).Within "b" createPdu
          "!room:a" ⟨2, ⟨"$incoming", messageFields [createId], false⟩, world⟩
          inner →
        ¬ (plainSurroundings (fun _ => none)).RunsOut "b" createPdu "!room:a"
          inner ∧
        ¬ (plainSurroundings (fun _ => none)).FailsCheck "b" createPdu
          "!room:a" inner := by
  have returned : Returned (handled [createId]) := by decide
  exact ⟨returned, (Surroundings.handleOutlierPdu_returns_iff rfl 2
    "$incoming" (messageFields [createId]) false world).mp returned⟩

theorem citedMessage_panics :
    panicMessage (handled [createId, "$message"]) =
        some "all auth events have state keys" ∧
      ¬ Returned (handled [createId, "$message"]) := by
  decide

end CitedMessage

end ArcanaServer.EventHandler
