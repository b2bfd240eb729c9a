import ArcanaServer.StateRes.Conflicts
import ArcanaServer.StateRes.Mainline
import ArcanaServer.StateRes.PowerSort

namespace ArcanaServer.StateRes

open Library ArcanaServer.Matrix List HashOrder Function

section

variable {ruma : Ruma} {store : EventStore} {roomVersion : RoomVersion}
  {order : EventId → HashOrder}

theorem passesAuthCheck_iff {authEvents : EventId → Option Pdu}
    {state : StateMap} {event : Pdu} {stateKey : StateKey} :
    passesAuthCheck ruma store roomVersion order authEvents state event
        stateKey = .ok true ↔
      ∃ authState createEvent,
        authStateFor ruma store roomVersion authEvents state event stateKey =
          .ok authState ∧
        authState.lookup (.roomCreate, "") = some createEvent ∧
        authCheck ruma roomVersion event
          (currentThirdParty (order event.eventId) authState)
          (fun kind key => authState.lookup (kind, key)) createEvent =
            .ok true := by
  constructor
  · intro passed
    obtain ⟨authState, built, rest⟩ := bind_eq_ok passed
    obtain ⟨createEvent, expected, verdict⟩ := bind_eq_ok rest
    refine ⟨authState, createEvent, built, ?_, verdict⟩
    unfold expectSome at expected
    split at expected
    next found => cases expected; exact found
    · cases expected
  · rintro ⟨authState, createEvent, built, created, verdict⟩
    unfold passesAuthCheck
    rw [built]
    change (expectSome createMustExist (authState.lookup (.roomCreate, "")) >>=
      fun createEvent => _) = _
    rw [created]
    exact verdict

theorem checkEvent_eq_ok {authEvents : EventId → Option Pdu}
    {state next : StateMap} {event : Pdu}
    (result : checkEvent ruma store roomVersion order authEvents state event =
      .ok next) :
    ∃ stateKey, event.stateKey = some stateKey ∧
      ((passesAuthCheck ruma store roomVersion order authEvents state event
          stateKey = .ok true ∧
        next = update state (event.kind, stateKey)
          (some event.eventId)) ∨ next = state) := by
  obtain ⟨stateKey, required, rest⟩ := bind_eq_ok result
  obtain ⟨accepted, verdict, final⟩ := bind_eq_ok rest
  refine ⟨stateKey, ?_, ?_⟩
  · unfold requireStateKey at required
    split at required
    next found => cases required; exact found
    · cases required
  · cases accepted with
    | true => cases final; exact .inl ⟨verdict, rfl⟩
    | false => cases final; exact .inr rfl

theorem sequentialAuthCheck_snoc {ids : List EventId} {id : EventId}
    {start final : StateMap}
    (result : sequentialAuthCheck ruma store roomVersion order (ids ++ [id])
      start = .ok final) :
    ∃ checked event,
      sequentialAuthCheck ruma store roomVersion order ids start = .ok checked ∧
        store.fetch id = some event ∧
        checkEvent ruma store roomVersion order store.fetch checked event =
          .ok final := by
  unfold sequentialAuthCheck at result
  rw [mapM_append] at result
  obtain ⟨events, fetched, checks⟩ := bind_eq_ok result
  obtain ⟨earlier, earlierFetched, rest⟩ := bind_eq_ok fetched
  obtain ⟨last, lastFetched, joined⟩ := bind_eq_ok rest
  rw [mapM_cons] at lastFetched
  obtain ⟨event, eventFetched, single⟩ := bind_eq_ok lastFetched
  cases single
  cases joined
  rw [foldlM_append] at checks
  obtain ⟨checked, before, lastCheck⟩ := bind_eq_ok checks
  rw [foldlM_cons] at lastCheck
  obtain ⟨next, step, done⟩ := bind_eq_ok lastCheck
  cases done
  refine ⟨checked, event, ?_, fetchOrNotFound_eq_ok eventFetched, step⟩
  unfold sequentialAuthCheck
  rw [earlierFetched]
  exact before

end

/-- When its turn came, the event passed the auth check against the state that
the events before it had left. -/
def AcceptedBy (ruma : Ruma) (store : EventStore) (roomVersion : RoomVersion)
    (order : EventId → HashOrder) (ids : List EventId) (start : StateMap)
    (key : TypeStateKey) (id : EventId) : Prop :=
  ∃ before after checked event stateKey, ids = before ++ id :: after ∧
      sequentialAuthCheck ruma store roomVersion order before start =
        .ok checked ∧
      store.fetch id = some event ∧
      event.stateKey = some stateKey ∧
      key = (event.kind, stateKey) ∧
      ∃ authState createEvent,
        authStateFor ruma store roomVersion store.fetch checked event
          stateKey = .ok authState ∧
        authState.lookup (.roomCreate, "") = some createEvent ∧
        authCheck ruma roomVersion event
          (currentThirdParty (order event.eventId) authState)
          (fun kind key => authState.lookup (kind, key)) createEvent =
            .ok true

section

variable {ruma : Ruma} {store : EventStore} {roomVersion : RoomVersion}
  {order : EventId → HashOrder}

theorem AcceptedBy.snoc {ids : List EventId} {start : StateMap}
    {key : TypeStateKey} {id last : EventId}
    (accepted : AcceptedBy ruma store roomVersion order ids start key id) :
    AcceptedBy ruma store roomVersion order (ids ++ [last]) start key id := by
  obtain ⟨before, after, checked, event, stateKey, split, rest⟩ := accepted
  exact ⟨before, after ++ [last], checked, event, stateKey,
    by rw [split]; simp, rest⟩

variable {ids : List EventId} {start final : StateMap}

theorem sequentialAuthCheck_entry
    (result : sequentialAuthCheck ruma store roomVersion order ids start =
      .ok final) {key : TypeStateKey} {id : EventId}
    (entry : final key = some id) :
    start key = some id ∨
      AcceptedBy ruma store roomVersion order ids start key id := by
  induction ids using reverseRecOn generalizing final with
  | nil =>
      cases result
      exact .inl entry
  | append_singleton ids last ih =>
      obtain ⟨checked, event, before, fetched, step⟩ :=
        sequentialAuthCheck_snoc result
      obtain ⟨stateKey, keyed, ⟨passed, rfl⟩ | rfl⟩ := checkEvent_eq_ok step
      · rcases update_eq_some entry with old | new
        · exact (ih before old).imp_right AcceptedBy.snoc
        · obtain ⟨sameKey, sameId⟩ := new
          have lastId : id = last := sameId.trans (store.named fetched)
          subst lastId
          exact .inr ⟨ids, [], checked, event, stateKey, rfl, before,
            fetched, keyed, sameKey, passesAuthCheck_iff.mp passed⟩
      · exact (ih before entry).imp_right AcceptedBy.snoc

theorem checkEvent_writes {state next : StateMap} {event : Pdu}
    (result : checkEvent ruma store roomVersion order store.fetch state event =
      .ok next) {key : TypeStateKey} (known : (state key).isSome) :
    (next key).isSome := by
  obtain ⟨stateKey, _, ⟨_, rfl⟩ | rfl⟩ := checkEvent_eq_ok result
  · by_cases same : key = (event.kind, stateKey)
    · rw [same, update_self]
      rfl
    · rwa [update_of_ne same]
  · exact known

/-- A key under which an event was accepted stays written. -/
theorem AcceptedBy.written {key : TypeStateKey} {id : EventId}
    (accepted : AcceptedBy ruma store roomVersion order ids start key id)
    (result : sequentialAuthCheck ruma store roomVersion order ids start =
      .ok final) : (final key).isSome := by
  induction ids using reverseRecOn generalizing final with
  | nil =>
      obtain ⟨before, after, _, _, _, split, _⟩ := accepted
      simp at split
  | append_singleton ids last ih =>
      obtain ⟨checked, event, before, fetched, step⟩ :=
        sequentialAuthCheck_snoc result
      obtain ⟨earlier, after, state, found, stateKey, split, ran, named, keyed,
        rfl, passed⟩ := accepted
      rcases eq_nil_or_concat after with rfl | ⟨later, other, rfl⟩
      · obtain ⟨rfl, same⟩ := append_inj' split rfl
        cases same
        cases ran.symm.trans before
        cases named.symm.trans fetched
        unfold checkEvent requireStateKey at step
        rw [keyed] at step
        change (passesAuthCheck ruma store roomVersion order store.fetch checked
          event stateKey >>= fun accepted => _) = _ at step
        rw [passesAuthCheck_iff.mpr passed] at step
        cases step
        rw [update_self]
        rfl
      · rw [concat_eq_append, ← cons_append, ← append_assoc] at split
        obtain ⟨rfl, _⟩ := append_inj' split rfl
        exact checkEvent_writes step (ih ⟨earlier, later, state, found,
          stateKey, rfl, ran, named, keyed, rfl, passed⟩ before)

theorem sequentialAuthCheck_keeps
    (result : sequentialAuthCheck ruma store roomVersion order ids start =
      .ok final) {key : TypeStateKey} (known : (start key).isSome) :
    (final key).isSome := by
  induction ids using reverseRecOn generalizing final with
  | nil =>
      cases result
      exact known
  | append_singleton ids last ih =>
      obtain ⟨checked, event, before, _, step⟩ :=
        sequentialAuthCheck_snoc result
      exact checkEvent_writes step (ih before)

end

/-- What a resolution of conflicting state goes through. -/
structure Run where
  subgraph : List EventId
  initialState : StateMap
  conflicted : List EventId
  roomVersion : RoomVersion
  sortedControl : List EventId
  resolvedControl : StateMap
  sortedLeft : List EventId
  resolved : StateMap

/-- The inputs of a resolution, with what they leave open. -/
structure Resolution where
  ruma : Ruma
  store : EventStore
  eventExists : EventId → Bool
  orders : ResolveOrders
  rounds : Nat
  roomVersion : RoomVersionId
  stateSets : List (StateSet EventId)
  authChainSets : List (IdSet EventId)

namespace Resolution

variable (resolution : Resolution)

def outcome : Bounded StateMap :=
  resolve resolution.ruma resolution.store resolution.eventExists
    resolution.orders resolution.rounds resolution.roomVersion
    resolution.stateSets resolution.authChainSets

def separated : Separated TypeStateKey EventId :=
  separate resolution.orders.occurrences resolution.orders.counts
    resolution.stateSets

abbrev StartsFrom (subgraph : List EventId) (initialState : StateMap) : Prop :=
  subgraphAndInitialState resolution.store resolution.orders resolution.rounds
    (stateResolutionVersion resolution.roomVersion) resolution.separated =
      .ok (subgraph, initialState)

abbrev fullConflictedSet (subgraph : List EventId) : List EventId :=
  allConflicted resolution.orders resolution.eventExists
    resolution.authChainSets resolution.separated.conflicted subgraph

/-- The control events are in the order of their checks. -/
structure ControlSorted (run : Run) : Prop where
  subgraph : resolution.StartsFrom run.subgraph run.initialState
  conflicted : run.conflicted = resolution.fullConflictedSet run.subgraph
  powerSort : reverseTopologicalPowerSort resolution.ruma resolution.store
    resolution.orders.powerSort resolution.rounds
    (run.conflicted.filter (isPowerEventId resolution.ruma resolution.store))
    run.conflicted = .ok run.sortedControl
  version : RoomVersion.new resolution.roomVersion = .ok run.roomVersion

structure LeftSorted (run : Run) : Prop
    extends resolution.ControlSorted run where
  control : iterativeAuthCheck resolution.ruma resolution.store
    run.roomVersion resolution.orders.controlCheck run.sortedControl
    run.initialState = .ok run.resolvedControl
  mainline : mainlineSort resolution.store resolution.orders.mainline
    resolution.rounds (run.conflicted.filter
      (fun id => !run.sortedControl.contains id))
    (run.resolvedControl (.roomPowerLevels, "")) = .ok run.sortedLeft

/-- The stages that a resolution goes through without failing. -/
structure Stages (run : Run) : Prop extends resolution.LeftSorted run where
  left : iterativeAuthCheck resolution.ruma resolution.store run.roomVersion
    resolution.orders.leftCheck run.sortedLeft run.resolvedControl =
      .ok run.resolved

def Accepted (run : Run) (key : TypeStateKey) (id : EventId) : Prop :=
  AcceptedBy resolution.ruma resolution.store run.roomVersion
      resolution.orders.controlCheck.authState
      (resolution.orders.controlCheck.fetches.bufferUnordered
        run.sortedControl) run.initialState key id ∨
    AcceptedBy resolution.ruma resolution.store run.roomVersion
      resolution.orders.leftCheck.authState
      (resolution.orders.leftCheck.fetches.bufferUnordered run.sortedLeft)
      run.resolvedControl key id

variable {resolution : Resolution}

theorem outcome_eq_ok {final : StateMap}
    (result : resolution.outcome = .ok final) :
    (resolution.separated.conflicted.entries = [] ∧
        final = resolution.separated.unconflicted) ∨
      resolution.separated.conflicted.entries ≠ [] ∧
        ∃ run, resolution.Stages run ∧ final = extendWith run.resolved
            resolution.separated.unconflicted := by
  unfold outcome resolve at result
  simp only at result
  split at result
  next empty =>
    cases result
    exact .inl ⟨List.isEmpty_iff.mp empty, rfl⟩
  next occupied =>
    obtain ⟨⟨subgraph, initialState⟩, first, rest⟩ := bind_eq_ok result
    obtain ⟨resolved, inner, final⟩ := bind_eq_ok rest
    cases final
    obtain ⟨sortedControl, powerSort, afterSort⟩ := bind_eq_ok inner
    obtain ⟨roomVersion, version, afterVersion⟩ := bind_eq_ok afterSort
    obtain ⟨resolvedControl, control, afterControl⟩ := bind_eq_ok afterVersion
    obtain ⟨sortedLeft, mainline, left⟩ := bind_eq_ok afterControl
    have nonempty : resolution.separated.conflicted.entries ≠ [] :=
      fun empty => occupied (List.isEmpty_iff.mpr empty)
    refine .inr ⟨nonempty, {
      subgraph, initialState, roomVersion, sortedControl, resolvedControl,
      sortedLeft, resolved
      conflicted := _ },
      ⟨⟨⟨first, rfl, powerSort, bounded_eq_ok.mp version⟩,
        bounded_eq_ok.mp control, mainline⟩, bounded_eq_ok.mp left⟩, rfl⟩

theorem mem_conflictingIds {order : HashOrder} {id : EventId} :
    id ∈ conflictingIds order resolution.separated.conflicted ↔
      ∃ key, Disputed resolution.stateSets key id := by
  unfold conflictingIds
  rw [mem_flatMap]
  constructor
  · rintro ⟨⟨key, ids⟩, listed, inside⟩
    have entry := (order.perm _).mem_iff.mp listed
    exact ⟨key, separate_conflicted.mp
      ⟨ids, AList.mem_lookup_iff.mpr entry, inside⟩⟩
  · rintro ⟨key, disputed⟩
    obtain ⟨ids, found, inside⟩ := separate_conflicted.mpr disputed
    exact ⟨⟨key, ids⟩, (order.perm _).mem_iff.mpr
      (AList.mem_lookup_iff.mp found), inside⟩

theorem exists_disputed
    (nonempty : resolution.separated.conflicted.entries ≠ []) :
    ∃ key id, Disputed resolution.stateSets key id := by
  obtain ⟨⟨key, ids⟩, listed⟩ := exists_mem_of_ne_nil _ nonempty
  have found : resolution.separated.conflicted.lookup key = some ids :=
    AList.mem_lookup_iff.mpr listed
  obtain ⟨id, inside⟩ :=
    exists_mem_of_ne_nil _ (separate_conflicted_ne_nil found)
  exact ⟨key, id, separate_conflicted.mp ⟨ids, found, inside⟩⟩

theorem not_disputed (empty : resolution.separated.conflicted.entries = [])
    (key : TypeStateKey) (id : EventId) :
    ¬ Disputed resolution.stateSets key id := by
  intro disputed
  obtain ⟨ids, found, _⟩ := separate_conflicted.mpr disputed
  have listed : (⟨key, ids⟩ : (_ : TypeStateKey) × List EventId) ∈
      resolution.separated.conflicted.entries := AList.mem_lookup_iff.mp found
  rw [empty] at listed
  cases listed

/-- An event that exists and is a conflicted state event or in the auth chain
difference, or where the version uses it an event of the conflicted
subgraph. -/
inductive FullyConflicted (resolution : Resolution) (id : EventId) : Prop
  | state {key : TypeStateKey} (known : resolution.eventExists id = true)
      (disputed : Disputed resolution.stateSets key id) :
      FullyConflicted resolution id
  | chain (known : resolution.eventExists id = true)
      (differ : ChainsDiffer resolution.authChainSets id) :
      FullyConflicted resolution id
  | subgraph (uses : stateResolutionVersion resolution.roomVersion = .v2_1)
      (onPath : OnConflictedPath resolution.store.authEventsOf
        (fun id => ∃ key, Disputed resolution.stateSets key id) id) :
      FullyConflicted resolution id

variable {subgraph : List EventId}

theorem subgraphAndInitialState_eq_ok {initialState : StateMap}
    (result : resolution.StartsFrom subgraph initialState) :
    (stateResolutionVersion resolution.roomVersion = .v2_1 ∧
        initialState = (fun _ => none) ∧
        calculateConflictedSubgraph resolution.store.authEventsOf
          (resolution.orders.conflictedEvents.visit (conflictingIds
            resolution.orders.subgraphValues
            resolution.separated.conflicted).dedup) resolution.rounds =
              .ok subgraph) ∨
      (stateResolutionVersion resolution.roomVersion ≠ .v2_1 ∧
        initialState = resolution.separated.unconflicted ∧
        subgraph = []) := by
  unfold StartsFrom subgraphAndInitialState at result
  split at result
  next uses =>
    obtain ⟨found, walked, final⟩ := bind_eq_ok result
    cases final
    exact .inl ⟨uses, rfl, walked⟩
  next other =>
    cases result
    exact .inr ⟨other, rfl, rfl⟩

theorem mem_allConflicted {id : EventId} :
    id ∈ resolution.fullConflictedSet subgraph ↔
      (ChainsDiffer resolution.authChainSets id ∨
          ∃ key, Disputed resolution.stateSets key id) ∧
          resolution.eventExists id = true ∨ id ∈ subgraph := by
  unfold fullConflictedSet allConflicted
  rw [(resolution.orders.allConflicted.perm _).mem_iff, mem_dedup,
    mem_append, mem_filter, Completion.mem_bufferUnordered,
    mem_append, mem_getAuthChainDiff, mem_conflictingIds,
    (resolution.orders.subgraph.perm _).mem_iff]

theorem fullyConflicted_of_mem {initialState : StateMap} {id : EventId}
    (result : resolution.StartsFrom subgraph initialState)
    (member : id ∈ resolution.fullConflictedSet subgraph) :
    resolution.FullyConflicted id := by
  rcases mem_allConflicted.mp member with listed | inSubgraph
  · rcases listed.1 with differ | disputed
    · exact .chain listed.2 differ
    · obtain ⟨key, disputed⟩ := disputed
      exact .state listed.2 disputed
  · rcases subgraphAndInitialState_eq_ok result with newer | older
    · obtain ⟨uses, _, walked⟩ := newer
      obtain ⟨source, target, fromSource, toTarget, path⟩ :=
        calculateConflictedSubgraph_sound walked id inSubgraph
      have disputed : ∀ other, other ∈ resolution.orders.conflictedEvents.visit
            (conflictingIds resolution.orders.subgraphValues
              resolution.separated.conflicted).dedup →
          ∃ key, Disputed resolution.stateSets key other := by
        intro other visited
        have listed := (resolution.orders.conflictedEvents.perm
          _).mem_iff.mp visited
        exact mem_conflictingIds.mp (mem_dedup.mp listed)
      exact .subgraph uses ⟨source, target, disputed source fromSource,
        disputed target toTarget, path⟩
    · rw [older.2.2] at inSubgraph
      cases inSubgraph

section

variable {run : Run} {id : EventId}

theorem ControlSorted.fullyConflicted (sorted : resolution.ControlSorted run)
    (member : id ∈ run.conflicted) : resolution.FullyConflicted id := by
  rw [sorted.conflicted] at member
  exact fullyConflicted_of_mem sorted.subgraph member

theorem ControlSorted.mem_control (sorted : resolution.ControlSorted run)
    (member : id ∈ run.sortedControl) : id ∈ run.conflicted :=
  reverseTopologicalPowerSort_mem
    (fun _ inside => mem_of_mem_filter inside) sorted.powerSort id member

theorem LeftSorted.mem_left (sorted : resolution.LeftSorted run)
    (member : id ∈ run.sortedLeft) : id ∈ run.conflicted :=
  mem_of_mem_filter (mainlineSort_mem sorted.mainline id member)

end

theorem AcceptedBy.mem {ruma : Ruma} {store : EventStore}
    {roomVersion : RoomVersion} {order : EventId → HashOrder}
    {ids : List EventId} {start : StateMap} {key : TypeStateKey} {id : EventId}
    (accepted : AcceptedBy ruma store roomVersion order ids start key id) :
    id ∈ ids := by
  obtain ⟨before, after, _, _, _, split, _⟩ := accepted
  rw [split]
  simp

section

variable {run : Run} (stages : resolution.Stages run) {key : TypeStateKey}
  {id : EventId}
include stages

theorem Stages.accepted_mem (accepted : resolution.Accepted run key id) :
    id ∈ run.conflicted := by
  rcases accepted with control | left
  · exact stages.mem_control
      (Completion.mem_bufferUnordered.mp (AcceptedBy.mem control))
  · exact stages.mem_left
      (Completion.mem_bufferUnordered.mp (AcceptedBy.mem left))

theorem Stages.resolved_entry (entry : run.resolved key = some id) :
    run.initialState key = some id ∨ resolution.Accepted run key id := by
  have left := stages.left
  have control := stages.control
  rw [iterativeAuthCheck_eq] at left control
  rcases sequentialAuthCheck_entry left entry with earlier | accepted
  · exact (sequentialAuthCheck_entry control earlier).imp_right .inl
  · exact .inr (.inr accepted)

theorem Stages.accepted_written (accepted : resolution.Accepted run key id) :
    (run.resolved key).isSome := by
  have left := stages.left
  have control := stages.control
  rw [iterativeAuthCheck_eq] at left control
  rcases accepted with earlier | later
  · exact sequentialAuthCheck_keeps left (earlier.written control)
  · exact later.written left

theorem Stages.initialState_agreed (entry : run.initialState key = some id) :
    Agreed resolution.stateSets key id := by
  rcases subgraphAndInitialState_eq_ok stages.subgraph with newer | older
  · rw [newer.2.1] at entry
    cases entry
  · rw [older.2.1] at entry
    exact separate_unconflicted.mp entry

end

/-- What a successful resolution may return. -/
structure ResolvedSoundly (resolution : Resolution) (final : StateMap) :
    Prop where
  agreed : ∀ key id, Agreed resolution.stateSets key id → final key = some id
  others : ∀ key id, final key = some id →
    ¬ Agreed resolution.stateSets key id →
    resolution.FullyConflicted id ∧
      ∃ run, resolution.Stages run ∧ resolution.Accepted run key id
  kept : ∀ key id, Disputed resolution.stateSets key id →
    ∃ run, resolution.Stages run ∧ ∀ other accepted,
      resolution.Accepted run other accepted → (final other).isSome
  common : (∀ key id, ¬ Disputed resolution.stateSets key id) →
    ∀ key id, final key = some id ↔ Agreed resolution.stateSets key id

theorem outcome_resolvedSoundly {final : StateMap}
    (result : resolution.outcome = .ok final) :
    resolution.ResolvedSoundly final := by
  rcases outcome_eq_ok result with unconflicted | conflicting
  · obtain ⟨none, rfl⟩ := unconflicted
    have entries : ∀ key id, resolution.separated.unconflicted key =
        some id ↔ Agreed resolution.stateSets key id :=
      fun key id => separate_unconflicted
    exact ⟨fun key id agreed => (entries key id).mpr agreed,
      fun key id entry differs =>
        absurd ((entries key id).mp entry) differs,
      fun key id disputed => absurd disputed (not_disputed none key id),
      fun _ => entries⟩
  · obtain ⟨nonempty, run, stages, rfl⟩ := conflicting
    have agreed : ∀ key id, Agreed resolution.stateSets key id →
        extendWith run.resolved resolution.separated.unconflicted key =
          some id := by
      intro key id agrees
      have kept : resolution.separated.unconflicted key = some id :=
        separate_unconflicted.mpr agrees
      simp [extendWith, kept]
    have accepted : ∀ key id,
        extendWith run.resolved resolution.separated.unconflicted key =
          some id → ¬ Agreed resolution.stateSets key id →
        resolution.Accepted run key id := by
      intro key id entry differs
      unfold extendWith at entry
      cases kept : resolution.separated.unconflicted key with
      | some other =>
          rw [kept] at entry
          cases entry
          exact absurd (separate_unconflicted.mp kept) differs
      | none =>
          rw [kept, Option.none_or] at entry
          rcases stages.resolved_entry entry with initial | found
          · exact absurd (stages.initialState_agreed initial) differs
          · exact found
    refine ⟨agreed, fun key id entry differs => ?_,
      fun key id disputed => ⟨run, stages, fun other id found => ?_⟩,
      fun undisputed => ?_⟩
    · have found := accepted key id entry differs
      exact ⟨stages.fullyConflicted (stages.accepted_mem found), run,
        stages, found⟩
    · unfold extendWith
      rw [Option.isSome_or, stages.accepted_written found, Bool.or_true]
    · obtain ⟨key, id, disputed⟩ := exists_disputed nonempty
      exact absurd disputed (undisputed key id)

end Resolution

def startOrder : Completion := Completion.oldestFirst 32 width_positive

def plainOrders : ResolveOrders where
  occurrences := inserted
  counts := inserted
  subgraphValues := inserted
  conflictedEvents := inserted
  idCounts := inserted
  conflictingValues := inserted
  existing := startOrder
  subgraph := inserted
  allConflicted := inserted
  powerSort := {
    keys := inserted
    levels := startOrder
    authEvents := fun _ _ => 0
    graph := inserted
    edges := inserted
    references := inserted }
  controlCheck := ordersOf startOrder
  mainline := {
    fetches := startOrder
    depths := startOrder
    keys := inserted }
  leftCheck := ordersOf startOrder

def topicSet (topic : EventId) : StateSet EventId :=
  AList.insert (.other "m.room.topic", "") topic
    (AList.insert (.roomMember, TopicRoom.creator) "$join"
      (AList.insert (.roomCreate, "") "$room" ∅))

def topicConflict : Resolution where
  ruma := plainRuma
  store := TopicRoom.store RoomVersion.v11 (fun _ => true)
  eventExists := fun _ => true
  orders := plainOrders
  rounds := 8
  roomVersion := .v11
  stateSets := [topicSet "$", topicSet "$t"]
  authChainSets := [⟨["$room", "$join"], by decide⟩,
    ⟨["$room", "$join"], by decide⟩]

def topicKey : TypeStateKey := (.other "m.room.topic", "")

/-- What both maps of the conflict hold. -/
def commonTopics : StateMap :=
  update (update (fun _ => none)
      (.roomCreate, "") (some "$room"))
    (.roomMember, TopicRoom.creator) (some "$join")

theorem topicConflict_outcome : topicConflict.outcome =
    .ok (update commonTopics topicKey (some "$t")) := by
  have run : topicConflict.outcome = .ok (extendWith (update
    (update commonTopics topicKey (some "$")) topicKey (some "$t"))
    commonTopics) := rfl
  rw [run]
  congr 1
  funext key
  by_cases same : key = topicKey
  · subst same
    rfl
  · simp [extendWith, same]

theorem topicConflict_resolvedSoundly : topicConflict.ResolvedSoundly
    (update commonTopics topicKey (some "$t")) :=
  Resolution.outcome_resolvedSoundly topicConflict_outcome

end ArcanaServer.StateRes
