import ArcanaServer.StateRes.Panics
import ArcanaServer.StateRes.ResolveRun

namespace ArcanaServer.StateRes

open Library ArcanaServer.Matrix List EventType AList RoomVersion

/-- An auth event of `event` that can be fetched is a create event. -/
def CitesCreate (store : EventStore) (event : Pdu) : Prop :=
  ∃ id ∈ event.authEvents, ∃ created, store.fetch id = some created ∧
    created.kind = .roomCreate ∧ created.stateKey = some ""

def CreateFetchable (store : EventStore) (state : StateMap) : Prop :=
  ∃ id created, state (.roomCreate, "") = some id ∧
    store.fetch id = some created

section

variable {ruma : Ruma} {store : EventStore} {roomVersion : RoomVersion}

variable {event : Pdu} {stateKey : StateKey}

theorem requireStateKey_eq_ok (result : requireStateKey event = .ok stateKey) :
    event.stateKey = some stateKey := by
  unfold requireStateKey at result
  split at result
  next found => cases result; exact found
  · cases result

variable {authState : AuthState}

variable {state : StateMap}

variable {authTypes : List TypeStateKey}

theorem mem_pushKey {added key : TypeStateKey} :
    key ∈ pushKey authTypes added ↔ key ∈ authTypes ∨ key = added := by
  unfold pushKey
  split
  next present =>
    constructor
    · exact .inl
    · rintro (old | rfl)
      · exact old
      · exact present
  · simp

theorem create_mem_pushDecoded {α : Type} {decoded : Option α}
    {added : α → TypeStateKey} (other : ∀ value, (added value).1 ≠ .roomCreate) :
    (roomCreate, "") ∈ pushDecoded authTypes decoded added ↔
      (roomCreate, "") ∈ authTypes := by
  cases decoded with
  | none => rfl
  | some value =>
      simp only [pushDecoded]
      rw [mem_pushKey]
      constructor
      · rintro (old | same)
        · exact old
        · exact absurd (congrArg Prod.fst same).symm (other value)
      · exact .inl

theorem create_mem_memberAuthTypes {content : RoomMemberContentFields} :
    (roomCreate, "") ∈
        memberAuthTypes ruma stateKey content authTypes ↔
      (roomCreate, "") ∈ authTypes := by
  unfold memberAuthTypes
  cases content.membership.bind MembershipState.decode with
  | none => rfl
  | some membership =>
      have joined : (roomCreate, "") ∈
          pushDecoded (pushKey authTypes (.roomJoinRules, ""))
            (content.joinAuthorisedViaUsersServer.bind ruma.decodeUserId)
            (fun user => (.roomMember, user)) ↔
          (roomCreate, "") ∈ authTypes := by
        rw [create_mem_pushDecoded (by simp), mem_pushKey]
        simp
      simp only
      split <;> split <;> simp [create_mem_pushDecoded, mem_pushKey, joined]

/-- Where room IDs are hashes, the resolved state is not asked for a create
event. -/
theorem create_mem_authTypes (result : authTypesForEvent ruma event.kind
    event.sender (some stateKey) event.content roomVersion = .ok authTypes) :
    (roomCreate, "") ∈ authTypes ↔
      roomVersion.roomIdsAsHashes = false ∧ event.kind ≠ .roomCreate := by
  have base : (roomCreate, "") ∈ baseAuthTypes event.sender roomVersion ↔
      roomVersion.roomIdsAsHashes = false := by
    unfold baseAuthTypes
    split <;> simp_all
  unfold authTypesForEvent at result
  split at result
  next create =>
    cases result
    simp [create]
  next other =>
    rw [and_iff_left other, ← base]
    split at result
    · obtain ⟨content, _, final⟩ := bind_eq_ok result
      cases final
      exact create_mem_memberAuthTypes
    · cases result
      rfl

/-- There is a create event for the check of the event: one that it cites, or
the one of the state, where a create event does not look. -/
def Supplied (store : EventStore) (state : StateMap) (event : Pdu) : Prop :=
  CitesCreate store event ∨
    event.kind ≠ .roomCreate ∧ CreateFetchable store state

end

section

variable (ruma : Ruma) (store : EventStore) (roomVersion : RoomVersion)
  (order : EventId → HashOrder)

/-- The create event is looked up for a check of the event. -/
def LooksUp (state : StateMap) (event : Pdu) : Prop :=
  ∃ stateKey authState, event.stateKey = some stateKey ∧
    authStateFor ruma store roomVersion store.fetch state event stateKey =
      .ok authState

/-- The checks of a list of events come to the event, in the state that the
events before it have left. -/
def ComesTo (ids : List EventId) (start state : StateMap) (event : Pdu) :
    Prop :=
  ∃ before after,
    ids.mapM (fetchOrNotFound store) = .ok (before ++ event :: after) ∧
      before.foldlM (checkEvent ruma store roomVersion order store.fetch)
        start = .ok state ∧
      LooksUp ruma store roomVersion state event

variable {ruma store roomVersion order} {state : StateMap} {event : Pdu}

abbrev panicked : Stop := .failed (.panic createMustExist)

theorem CreateFetchable.update {key : TypeStateKey}
    (held : CreateFetchable store state)
    (fetched : store.fetch event.eventId = some event) :
    CreateFetchable store (Function.update state key (some event.eventId)) := by
  rcases Decidable.em ((roomCreate, "") = key) with same | different
  · exact ⟨event.eventId, event, by simp [same], fetched⟩
  · obtain ⟨id, created, row, found⟩ := held
    exact ⟨id, created, by rw [Function.update_of_ne different]; exact row,
      found⟩

theorem CreateFetchable.foldlM {events : List Pdu}
    (fetched : ∀ event ∈ events, store.fetch event.eventId = some event)
    (held : CreateFetchable store state) {final : StateMap}
    (ran : events.foldlM (checkEvent ruma store roomVersion order store.fetch)
      state = .ok final) : CreateFetchable store final := by
  induction events generalizing state with
  | nil =>
      cases ran
      exact held
  | cons event rest ih =>
      obtain ⟨here, later⟩ := forall_mem_cons.mp fetched
      rw [foldlM_cons] at ran
      obtain ⟨next, step, rests⟩ := bind_eq_ok ran
      obtain ⟨stateKey, _, ⟨_, rfl⟩ | rfl⟩ := checkEvent_eq_ok step
      · exact ih later (held.update here) rests
      · exact ih later held rests

theorem fetched_of_mapM {ids : List EventId} {events : List Pdu}
    (fetched : ids.mapM (fetchOrNotFound store) = .ok events) :
    ∀ event ∈ events, store.fetch event.eventId = some event := by
  intro event member
  obtain ⟨id, _, found⟩ := (mapM_matches fetched).1 event member
  have own := fetchOrNotFound_eq_ok found
  rw [store.named own]
  exact own

theorem ComesTo.fetched {ids : List EventId} {start : StateMap}
    (comes : ComesTo ruma store roomVersion order ids start state event) :
    ∃ id ∈ ids, store.fetch id = some event := by
  obtain ⟨before, after, fetched, _⟩ := comes
  obtain ⟨id, listed, found⟩ := (mapM_matches fetched).1 event (by simp)
  exact ⟨id, listed, fetchOrNotFound_eq_ok found⟩

theorem CreateFetchable.checked {orders : CheckOrders} {ids : List EventId}
    (held : CreateFetchable store state) {final : StateMap}
    (ran : iterativeAuthCheck ruma store roomVersion orders ids state =
      .ok final) : CreateFetchable store final := by
  rw [iterativeAuthCheck_eq] at ran
  obtain ⟨events, fetched, checks⟩ := bind_eq_ok ran
  exact held.foldlM (fetched_of_mapM fetched) checks

end

/-! The other stages do not end with the panic. -/

section

variable {store : EventStore}

end

namespace Resolution

variable (resolution : Resolution)

/-- Every state map has the same create event, and it can be fetched. -/
def Created : Prop :=
  ∃ id created, resolution.store.fetch id = some created ∧
    created.kind = .roomCreate ∧
    ∀ stateSet ∈ resolution.stateSets,
      stateSet.lookup (.roomCreate, "") = some id

/-- One of the two rounds of checks of the resolution comes to the event. -/
def Checks (state : StateMap) (event : Pdu) : Prop :=
  resolution.separated.conflicted.entries ≠ [] ∧ ∃ run,
    resolution.ControlSorted run ∧
        ComesTo resolution.ruma resolution.store run.roomVersion
          resolution.orders.controlCheck.authState
          (resolution.orders.controlCheck.fetches.bufferUnordered
            run.sortedControl) run.initialState state event ∨
      resolution.LeftSorted run ∧
        ComesTo resolution.ruma resolution.store run.roomVersion
          resolution.orders.leftCheck.authState
          (resolution.orders.leftCheck.fetches.bufferUnordered
            run.sortedLeft) run.resolvedControl state event

variable {resolution}

theorem Checks.fullyConflicted {state : StateMap} {event : Pdu}
    (checks : resolution.Checks state event) :
    ∃ id, resolution.FullyConflicted id ∧
      resolution.store.fetch id = some event := by
  obtain ⟨_, run, ⟨sorted, comes⟩ | ⟨sorted, comes⟩⟩ := checks
  · obtain ⟨id, listed, fetched⟩ := comes.fetched
    exact ⟨id, sorted.fullyConflicted (sorted.mem_control
      (Completion.mem_bufferUnordered.mp listed)), fetched⟩
  · obtain ⟨id, listed, fetched⟩ := comes.fetched
    exact ⟨id, sorted.fullyConflicted (sorted.mem_left
      (Completion.mem_bufferUnordered.mp listed)), fetched⟩

end Resolution

end ArcanaServer.StateRes
