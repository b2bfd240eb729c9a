import ArcanaServer.Library.HashOrder
import ArcanaServer.Library.Settles
import ArcanaServer.Library.Tally
import ArcanaServer.Library.Unordered
import ArcanaServer.StateRes.EventAuth
import Mathlib.Data.List.Sort
import Mathlib.Data.String.Basic

namespace ArcanaServer.StateRes

open Library ArcanaServer.Matrix

/-- The events that a run of state resolution can fetch.  What is fetched under
an identifier carries that identifier. -/
structure EventStore where
  fetch : EventId → Option Pdu
  named : ∀ {id : EventId} {event : Pdu},
    fetch id = some event → event.eventId = id

/-- A `StateMap<OwnedEventId>` that is only read and written by key. -/
abbrev StateMap := TypeStateKey → Option EventId

abbrev AuthState := AList (fun _ : TypeStateKey => Pdu)

/-- What the inputs of one iterative auth check leave open. -/
structure CheckOrders where
  /-- The concurrent fetches of the events to check. -/
  fetches : Completion
  /-- The iteration over the set of their auth events. -/
  authEventIds : HashOrder
  /-- The concurrent fetches of their auth events. -/
  authFetches : Completion
  /-- The iteration over the state that an event is checked against. -/
  authState : EventId → HashOrder

theorem width_positive : 0 < 32 := by decide

section

variable (ruma : Ruma) (store : EventStore) (roomVersion : RoomVersion)

def fetchOrNotFound (id : EventId) : Outcome Pdu :=
  match store.fetch id with
  | some event => .ok event
  | none => .error (.error (.notFound ("Failed to find " ++ id)))

def requireStateKey (event : Pdu) : Outcome StateKey :=
  match event.stateKey with
  | some stateKey => .ok stateKey
  | none => .error (.error (.invalidPdu "State event had no state key"))

/-- In the versions in which the room ID is the hash of the create event, the
create event is found through it. -/
def createAuthState (event : Pdu) : Outcome AuthState :=
  if roomVersion.roomIdsAsHashes then do
    let roomId ← roomIdOrHash ruma event
    let createEventId := replaceChar '!' '$' roomId
    if ruma.validEventId createEventId then
      match store.fetch createEventId with
      | some createEvent =>
          return AList.insert (createEvent.kind, "") createEvent ∅
      | none => throw (.error (.notFound "Failed to find create event"))
    else
      throw (.error (.invalidPdu
        ("Failed to parse create event ID from room ID/hash: " ++
          ruma.eventIdError createEventId)))
  else .ok ∅

def addCited (authEvents : EventId → Option Pdu) (authState : AuthState)
    (id : EventId) : Outcome AuthState :=
  match authEvents id with
  | none => .ok authState
  | some event => do
      let stateKey ← requireStateKey event
      return authState.insert (event.kind, stateKey) event

variable (authEvents : EventId → Option Pdu) (resolvedState : StateMap)

/-- The event that the resolved state has at a key takes the place of a cited
one. -/
def addResolved (authState : AuthState) (key : TypeStateKey) : AuthState :=
  match resolvedState key with
  | none => authState
  | some id =>
      match (authEvents id).or (store.fetch id) with
      | none => authState
      | some event => authState.insert key event

def authStateFor (event : Pdu) (stateKey : StateKey) : Outcome AuthState := do
  let authTypes ← authTypesForEvent ruma event.kind event.sender
    (some stateKey) event.content roomVersion
  let created ← createAuthState ruma store roomVersion event
  let cited ← event.authEvents.foldlM (addCited authEvents) created
  return authTypes.foldl (addResolved store authEvents resolvedState) cited

/-- The first third party invite that the iteration over the state meets. -/
def currentThirdParty (order : HashOrder) (authState : AuthState) :
    Option Pdu :=
  ((order.map authState).entries.map Sigma.snd).find?
    (fun event => decide (event.kind = .roomThirdPartyInvite))

def createMustExist : String := "create event must exist"

variable (order : EventId → HashOrder) (authEvents : EventId → Option Pdu)
  (resolvedState : StateMap) (event : Pdu)

def passesAuthCheck (stateKey : StateKey) : Outcome Bool := do
  let authState ← authStateFor ruma store roomVersion authEvents resolvedState
    event stateKey
  let createEvent ←
    expectSome createMustExist (authState.lookup (.roomCreate, ""))
  authCheck ruma roomVersion event
    (currentThirdParty (order event.eventId) authState)
    (fun kind key => authState.lookup (kind, key)) createEvent

def checkEvent : Outcome StateMap := do
  let stateKey ← requireStateKey event
  let accepted ← passesAuthCheck ruma store roomVersion order authEvents
    resolvedState event stateKey
  if accepted then
    return Function.update resolvedState (event.kind, stateKey)
      (some event.eventId)
  else return resolvedState

/-- The auth events of all events to check, fetched once. -/
def fetchAuthEvents (orders : CheckOrders) (events : List Pdu) :
    AList (fun _ : EventId => Pdu) :=
  let authEventIds := (events.flatMap Pdu.authEvents).dedup
  collect (((orders.authFetches.bufferUnordered
      (orders.authEventIds.visit authEventIds)).filterMap store.fetch).map
    (fun event => (event.eventId, event)))

def iterativeAuthCheck (orders : CheckOrders) (eventsToCheck : List EventId)
    (unconflictedState : StateMap) : Outcome StateMap := do
  let events ← (orders.fetches.bufferUnordered eventsToCheck).mapM
    (fetchOrNotFound store)
  if events.isEmpty then return unconflictedState
  else
    let authEvents := fetchAuthEvents store orders events
    events.foldlM (checkEvent ruma store roomVersion orders.authState
      authEvents.lookup) unconflictedState

/-! What the check is for: the events, one after the other in the given order,
each against the state that the ones before it left. -/

def sequentialAuthCheck (order : EventId → HashOrder)
    (eventsToCheck : List EventId) (unconflictedState : StateMap) :
    Outcome StateMap := do
  let events ← eventsToCheck.mapM (fetchOrNotFound store)
  events.foldlM (checkEvent ruma store roomVersion order store.fetch)
    unconflictedState

end

section

variable {ruma : Ruma} {store : EventStore} {roomVersion : RoomVersion}

theorem fetchOrNotFound_eq_ok {id : EventId} {event : Pdu}
    (result : fetchOrNotFound store id = .ok event) :
    store.fetch id = some event := by
  unfold fetchOrNotFound at result
  split at result
  next found => cases result; exact found
  · cases result

section

variable {orders : CheckOrders} {events : List Pdu}

theorem fetchAuthEvents_sound {id : EventId} {event : Pdu}
    (found : (fetchAuthEvents store orders events).lookup id = some event) :
    store.fetch id = some event := by
  have listed := mem_of_lookup_collect found
  obtain ⟨fetched, inside, same⟩ := List.mem_map.mp listed
  obtain ⟨source, _, result⟩ := List.mem_filterMap.mp inside
  cases same
  rw [store.named result]
  exact result

theorem fetchAuthEvents_complete {citing : Pdu} (member : citing ∈ events)
    {id : EventId} (cited : id ∈ citing.authEvents) :
    (fetchAuthEvents store orders events).lookup id = store.fetch id := by
  cases result : store.fetch id with
  | none =>
      cases found : (fetchAuthEvents store orders events).lookup id with
      | none => rfl
      | some event =>
          rw [fetchAuthEvents_sound found] at result
          cases result
  | some event =>
      have visited : id ∈ orders.authFetches.bufferUnordered
          (orders.authEventIds.visit
            (events.flatMap Pdu.authEvents).dedup) := by
        rw [Completion.mem_bufferUnordered,
          (orders.authEventIds.perm _).mem_iff, List.mem_dedup]
        exact List.mem_flatMap.mpr ⟨citing, member, cited⟩
      have listed : (id, event) ∈
          ((orders.authFetches.bufferUnordered (orders.authEventIds.visit
            (events.flatMap Pdu.authEvents).dedup)).filterMap
              store.fetch).map (fun event => (event.eventId, event)) := by
        refine List.mem_map.mpr ⟨event, ?_, by rw [store.named result]⟩
        exact List.mem_filterMap.mpr ⟨id, visited, result⟩
      obtain ⟨last, found⟩ := lookup_collect_isSome listed
      have lookup :
          (fetchAuthEvents store orders events).lookup id = some last := found
      have same := fetchAuthEvents_sound lookup
      rw [result] at same
      cases same
      exact found

theorem checkEvent_fetchAuthEvents {event : Pdu} (member : event ∈ events)
    (order : EventId → HashOrder) (state : StateMap) :
    checkEvent ruma store roomVersion order
        (fetchAuthEvents store orders events).lookup state event =
      checkEvent ruma store roomVersion order store.fetch state event := by
  have cited : ∀ (created : AuthState), event.authEvents.foldlM
          (addCited (fetchAuthEvents store orders events).lookup) created =
        event.authEvents.foldlM (addCited store.fetch) created := by
    intro created
    apply foldlM_congr
    intro authState id listed
    simp only [addCited, fetchAuthEvents_complete member listed]
  have resolved : addResolved store
      (fetchAuthEvents store orders events).lookup state =
        addResolved store store.fetch state := by
    funext authState key
    unfold addResolved
    cases state key with
    | none => rfl
    | some id =>
        simp only
        cases found : (fetchAuthEvents store orders events).lookup id with
        | none => simp
        | some fetched => rw [fetchAuthEvents_sound found]
  unfold checkEvent passesAuthCheck authStateFor
  simp only [cited, resolved]

theorem foldlM_checkEvent_fetchAuthEvents (order : EventId → HashOrder)
    (state : StateMap) :
    events.foldlM (checkEvent ruma store roomVersion order
        (fetchAuthEvents store orders events).lookup) state =
      events.foldlM (checkEvent ruma store roomVersion order store.fetch)
        state := by
  apply foldlM_congr
  intro state event member
  exact checkEvent_fetchAuthEvents member order state

end

theorem iterativeAuthCheck_eq (orders : CheckOrders)
    (eventsToCheck : List EventId) (unconflictedState : StateMap) :
    iterativeAuthCheck ruma store roomVersion orders eventsToCheck
        unconflictedState =
      sequentialAuthCheck ruma store roomVersion orders.authState
        (orders.fetches.bufferUnordered eventsToCheck)
        unconflictedState := by
  unfold iterativeAuthCheck sequentialAuthCheck
  congr 1
  funext events
  cases events with
  | nil => rfl
  | cons first rest =>
      simp only [List.isEmpty_cons, Bool.false_eq_true, if_false]
      exact foldlM_checkEvent_fetchAuthEvents orders.authState unconflictedState

end

/-- The loops over the auth graph are run for a given number of rounds. -/
inductive Stop where
  | failed (failure : Failure)
  | unfinished
  deriving DecidableEq, Repr

abbrev Bounded := Except Stop

def bounded {α : Type} (outcome : Outcome α) : Bounded α :=
  outcome.mapError Stop.failed

theorem bounded_eq_ok {α : Type} {outcome : Outcome α} {value : α} :
    bounded outcome = .ok value ↔ outcome = .ok value := by
  cases outcome <;> simp [bounded, Except.mapError]

def Stop.Final : Stop → Prop
  | .failed _ => True
  | .unfinished => False

theorem bounded_agree {α : Type} {left right : Outcome α}
    (agree : Agree (fun _ => True) left right) :
    Agree Stop.Final (bounded left) (bounded right) := by
  cases agree with
  | ok value => exact .ok value
  | error _ _ => exact .error trivial trivial

theorem bounded_agree_self {α : Type} (outcome : Outcome α) :
    Agree Stop.Final (bounded outcome) (bounded outcome) := by
  apply bounded_agree
  cases outcome with
  | ok value => exact .ok value
  | error failure => exact .error trivial trivial

abbrev StateSet (Id : Type) := AList (fun _ : TypeStateKey => Id)

abbrev IdSet (Id : Type) := { ids : List Id // ids.Nodup }

section

variable {κ Id : Type} [DecidableEq κ] [DecidableEq Id]

structure Separated (κ Id : Type) where
  unconflicted : κ → Option Id
  conflicted : AList (fun _ : κ => List Id)

def separateValue (stateSetCount : Nat) (key : κ)
    (separated : Separated κ Id) (occurrence : (_ : Id) × Nat) :
    Separated κ Id :=
  if occurrence.2 = stateSetCount then
    { separated with
      unconflicted :=
        Function.update separated.unconflicted key (some occurrence.1) }
  else
    { separated with
      conflicted := separated.conflicted.insert key
        ((separated.conflicted.lookup key).getD [] ++ [occurrence.1]) }

def separateKey (order : HashOrder) (stateSetCount : Nat)
    (separated : Separated κ Id) (entry : (_ : κ) × Tally Id) :
    Separated κ Id :=
  (order.map entry.2).entries.foldl (separateValue stateSetCount entry.1)
    separated

/-- `keys` and `values` are the iteration orders of the occurrences and of the
counts of one key. -/
def separate (keys values : HashOrder)
    (stateSets : List (AList (fun _ : κ => Id))) : Separated κ Id :=
  let occurrences := occurrencesOf (stateSets.flatMap AList.entries)
  (keys.map occurrences).entries.foldl (separateKey values stateSets.length)
    { unconflicted := fun _ => none, conflicted := ∅ }

/-- `order` is the iteration order of the counts. -/
def getAuthChainDiff (order : HashOrder) (authChainSets : List (IdSet Id)) :
    List Id :=
  let idCounts := Tally.of (authChainSets.flatMap Subtype.val)
  (order.map idCounts).entries.filterMap (fun occurrence =>
    if occurrence.2 < authChainSets.length then some occurrence.1 else none)

end

section

variable {Id : Type} [DecidableEq Id]

/-- The state of the depth-first walk.  The last layer of the stack and the
last event of the path are at the head. -/
structure Walk (Id : Type) where
  subgraph : List Id
  stack : List (List Id)
  path : List Id
  seen : List Id

/-- Drop the layers that are used up, and with each the event whose auth events
it held. -/
def nextEvent :
    List (List Id) → List Id → Option (Id × List (List Id) × List Id)
  | [], _ => none
  | [] :: stack, path => nextEvent stack path.tail
  | (id :: layer) :: stack, path => some (id, layer :: stack, path)

def addPath (subgraph path : List Id) : List Id :=
  if path.length > 1 then path ∪ subgraph else subgraph

variable (authEventsOf : Id → Option (List Id)) (conflictedEvents : List Id)
  (walk : Walk Id) (id : Id)

def visitEvent : Walk Id :=
  let path := id :: walk.path
  let subgraph :=
    if id ∈ conflictedEvents then addPath walk.subgraph path
    else walk.subgraph
  if id ∈ walk.seen then { walk with subgraph }
  else
    match authEventsOf id with
    | none => { walk with subgraph }
    | some authEvents =>
        { subgraph
          stack := authEvents.reverse :: walk.stack
          path
          seen := id :: walk.seen }

def walkStep : Walk Id :=
  if id ∈ walk.subgraph then
    { walk with subgraph := addPath walk.subgraph (id :: walk.path) }
  else visitEvent authEventsOf conflictedEvents walk id

def walkLoop (authEventsOf : Id → Option (List Id))
    (conflictedEvents : List Id) : Nat → Walk Id → Bounded (List Id)
  | 0, _ => .error .unfinished
  | rounds + 1, walk =>
      match nextEvent walk.stack walk.path with
      | none => .ok walk.subgraph
      | some (id, stack, path) =>
          walkLoop authEventsOf conflictedEvents rounds
            (walkStep authEventsOf conflictedEvents { walk with stack, path }
              id)

/-- `conflictedEvents` is the set of the conflicted events in its iteration
order. -/
def calculateConflictedSubgraph (authEventsOf : Id → Option (List Id))
    (conflictedEvents : List Id) (rounds : Nat) : Bounded (List Id) :=
  walkLoop authEventsOf conflictedEvents rounds
    { subgraph := []
      stack := [conflictedEvents.reverse]
      path := []
      seen := [] }

end

def EventStore.authEventsOf (store : EventStore) (id : EventId) :
    Option (List EventId) :=
  (store.fetch id).map Pdu.authEvents

def isTypeAndKey (event : Pdu) (kind : EventType) (stateKey : StateKey) :
    Bool :=
  decide (event.kind = kind ∧ event.stateKey = some stateKey)

def isPowerEvent (ruma : Ruma) (event : Pdu) : Bool :=
  match event.kind with
  | .roomPowerLevels | .roomJoinRules | .roomCreate =>
      decide (event.stateKey = some "")
  | .roomMember =>
      match ruma.roomMember event.content with
      | some .leave | some .ban => decide (some event.sender ≠ event.stateKey)
      | _ => false
  | _ => false

def isPowerEventId (ruma : Ruma) (store : EventStore) (id : EventId) : Bool :=
  match store.fetch id with
  | some event => isPowerEvent ruma event
  | none => false

def addAuthEdge (authDiff : List EventId) (eventId : EventId)
    (walk : List EventId × Graph EventId) (id : EventId) :
    List EventId × Graph EventId :=
  if id ∈ authDiff then
    (if id ∈ walk.2.keys then walk.1 else id :: walk.1,
      walk.2.insert eventId ((edgesOf walk.2 eventId).insert id))
  else walk

def addChainLoop (store : EventStore) (authDiff : List EventId) :
    Nat → List EventId → Graph EventId → Bounded (Graph EventId)
  | 0, _, _ => .error .unfinished
  | _ + 1, [], graph => .ok graph
  | rounds + 1, eventId :: state, graph =>
      let graph := graph.insert eventId (edgesOf graph eventId)
      let next := ((store.authEventsOf eventId).getD []).foldl
        (addAuthEdge authDiff eventId) (state, graph)
      addChainLoop store authDiff rounds next.1 next.2

def addEventAndAuthChainToGraph (store : EventStore)
    (authDiff : List EventId) (rounds : Nat) (graph : Graph EventId)
    (eventId : EventId) : Bounded (Graph EventId) :=
  addChainLoop store authDiff rounds [eventId] graph

/-- The fetches of the auth events of one event, five at a time. -/
def fiveAtOnce (pick : Nat → Nat) : Completion where
  width := 5
  positive := by decide
  pick := pick

def getPowerLevelForSender (ruma : Ruma) (store : EventStore)
    (completes : Completion) (id : EventId) : Option Int :=
  let event := store.fetch id
  let authEvents := (event.map Pdu.authEvents).getD []
  let powerLevels :=
    ((completes.bufferUnordered authEvents).filterMap store.fetch).find?
      (fun event => isTypeAndKey event .roomPowerLevels "")
  match powerLevels with
  | none => some 0
  | some powerLevels => do
      let content ← deserializeLegacyPowerLevelsContentFields ruma
        powerLevels.content
      match event with
      | some event => return content.userLevel event.sender
      | none => return content.usersDefault

structure SortOrders where
  /-- The iteration over the keys of the graph. -/
  keys : HashOrder
  /-- The concurrent search for the levels of the senders. -/
  levels : Completion
  /-- The concurrent fetches of the auth events of one event. -/
  authEvents : EventId → Nat → Nat
  /-- The iteration over the graph. -/
  graph : HashOrder
  /-- The iteration over the edges of a node. -/
  edges : HashOrder
  /-- The iteration over the nodes that reference a node. -/
  references : HashOrder

def visitEdges (order : HashOrder) (graph : Graph EventId) :
    Graph EventId :=
  ⟨graph.entries.map (fun entry => ⟨entry.1, order.visit entry.2⟩), by
    have keys : (graph.entries.map (fun entry =>
        (⟨entry.1, order.visit entry.2⟩ : (_ : EventId) × List EventId))).keys
          = graph.entries.keys := by
      simp [List.keys, Function.comp_def]
    rw [List.NodupKeys, keys]
    exact graph.nodupKeys⟩

variable (ruma : Ruma) (store : EventStore) (orders : SortOrders)

def eventToPl (graph : Graph EventId) : AList (fun _ : EventId => Int) :=
  collect ((orders.levels.bufferUnordered
    (orders.keys.visit graph.keys)).filterMap (fun id =>
      (getPowerLevelForSender ruma store
        (fiveAtOnce (orders.authEvents id)) id).map (fun level =>
          (id, level))))

def powerSortKey (eventToPl : AList (fun _ : EventId => Int)) : KeyFn EventId :=
  fun id =>
    match eventToPl.lookup id, store.fetch id with
    | some level, some event => .ok (level, event.originServerTs)
    | _, _ => .error (.error (.notFound ""))

def reverseTopologicalPowerSort (rounds : Nat)
    (eventsToSort authDiff : List EventId) : Bounded (List EventId) := do
  let graph ← eventsToSort.foldlM
    (addEventAndAuthChainToGraph store authDiff rounds) ∅
  bounded (lexicographicalTopologicalSort
    (visitEdges orders.edges (orders.graph.map graph))
    (powerSortKey store (eventToPl ruma store orders graph))
    orders.references.visit)

def findPowerLevels (store : EventStore) : List EventId → Outcome (Option Pdu)
  | [] => .ok none
  | id :: rest => do
      let event ← fetchOrNotFound store id
      if isTypeAndKey event .roomPowerLevels "" then return some event
      else findPowerLevels store rest

def mainlineFrom (store : EventStore) :
    Nat → Option EventId → Bounded (List EventId)
  | _, none => .ok []
  | 0, some _ => .error .unfinished
  | rounds + 1, some id => do
      let event ← bounded (fetchOrNotFound store id)
      let next ← bounded (findPowerLevels store event.authEvents)
      let rest ← mainlineFrom store rounds (next.map Pdu.eventId)
      return id :: rest

abbrev MainlineMap := AList (fun _ : EventId => Nat)

def mainlineMap (mainline : List EventId) : MainlineMap :=
  collect mainline.reverse.zipIdx

def getMainlineDepth (store : EventStore) (mainlineMap : MainlineMap) :
    Nat → Option Pdu → Bounded Nat
  | _, none => .ok 0
  | 0, some _ => .error .unfinished
  | rounds + 1, some event =>
      match mainlineMap.lookup event.eventId with
      | some depth => .ok depth
      | none => do
          let next ← bounded (findPowerLevels store event.authEvents)
          getMainlineDepth store mainlineMap rounds next

abbrev OrderKey := Nat ×ₗ Nat ×ₗ EventId

/-- The place of an event in the order; an event whose depth cannot be found is
passed over. -/
def orderEntry (store : EventStore) (mainlineMap : MainlineMap)
    (rounds : Nat) (event : Pdu) : Bounded (Option (EventId × OrderKey)) :=
  match getMainlineDepth store mainlineMap rounds (some event) with
  | .ok depth => .ok (some (event.eventId,
      toLex (depth, toLex (event.originServerTs, event.eventId))))
  | .error (.failed _) => .ok none
  | .error .unfinished => .error .unfinished

structure MainlineOrders where
  /-- The concurrent fetches of the events. -/
  fetches : Completion
  /-- The concurrent search for their depths. -/
  depths : Completion
  /-- The iteration over the keys of the order map. -/
  keys : HashOrder

def mainlineSort (store : EventStore) (orders : MainlineOrders)
    (rounds : Nat) (toSort : List EventId)
    (resolvedPowerLevel : Option EventId) : Bounded (List EventId) :=
  if toSort.isEmpty then .ok []
  else do
    let mainline ← mainlineFrom store rounds resolvedPowerLevel
    let fetched := (orders.fetches.bufferUnordered toSort).filterMap store.fetch
    let entries ← (orders.depths.bufferUnordered fetched).mapM
      (orderEntry store (mainlineMap mainline) rounds)
    let orderMap : AList (fun _ : EventId => OrderKey) :=
      collect (entries.filterMap id)
    let sorted := (orders.keys.map orderMap).entries.insertionSort
      (fun left right => left.2 ≤ right.2)
    return sorted.map Sigma.fst

structure ResolveOrders where
  /-- The iterations over the occurrences and over the counts of a key. -/
  occurrences : HashOrder
  counts : HashOrder
  /-- The iterations over the values of the conflicting state and over the set
  of the conflicted events. -/
  subgraphValues : HashOrder
  conflictedEvents : HashOrder
  /-- The iteration over the counts of the auth chain events. -/
  idCounts : HashOrder
  conflictingValues : HashOrder
  /-- The concurrent existence checks. -/
  existing : Completion
  /-- The iterations over the conflicted subgraph and over the full conflicted
  set. -/
  subgraph : HashOrder
  allConflicted : HashOrder
  powerSort : SortOrders
  controlCheck : CheckOrders
  mainline : MainlineOrders
  leftCheck : CheckOrders

def conflictingIds (order : HashOrder)
    (conflicting : AList (fun _ : TypeStateKey => List EventId)) :
    List EventId :=
  (order.map conflicting).entries.flatMap Sigma.snd

def subgraphAndInitialState (store : EventStore) (orders : ResolveOrders)
    (rounds : Nat) (version : StateResolutionVersion)
    (separated : Separated TypeStateKey EventId) :
    Bounded (List EventId × StateMap) :=
  if version = .v2_1 then do
    let conflictedEvents := orders.conflictedEvents.visit
      (conflictingIds orders.subgraphValues separated.conflicted).dedup
    let subgraph ← calculateConflictedSubgraph store.authEventsOf
      conflictedEvents rounds
    return (subgraph, fun _ => none)
  else .ok ([], separated.unconflicted)

def allConflicted (orders : ResolveOrders) (eventExists : EventId → Bool)
    (authChainSets : List (IdSet EventId))
    (conflicting : AList (fun _ : TypeStateKey => List EventId))
    (subgraph : List EventId) : List EventId :=
  let differing := getAuthChainDiff orders.idCounts authChainSets ++
    conflictingIds orders.conflictingValues conflicting
  orders.allConflicted.visit
    ((orders.existing.bufferUnordered differing).filter eventExists ++
      orders.subgraph.visit subgraph).dedup

def resolveConflicted (ruma : Ruma) (store : EventStore)
    (orders : ResolveOrders) (rounds : Nat) (roomVersionId : RoomVersionId)
    (conflicted : List EventId) (initialState : StateMap) :
    Bounded StateMap := do
  let controlEvents := conflicted.filter (isPowerEventId ruma store)
  let sortedControlLevels ← reverseTopologicalPowerSort ruma store
    orders.powerSort rounds controlEvents conflicted
  let roomVersion ← bounded (RoomVersion.new roomVersionId)
  let resolvedControl ← bounded (iterativeAuthCheck ruma store roomVersion
    orders.controlCheck sortedControlLevels initialState)
  let eventsToResolve :=
    conflicted.filter (fun id => !sortedControlLevels.contains id)
  let sortedLeftEvents ← mainlineSort store orders.mainline rounds
    eventsToResolve (resolvedControl (.roomPowerLevels, ""))
  bounded (iterativeAuthCheck ruma store roomVersion orders.leftCheck
    sortedLeftEvents resolvedControl)

def extendWith (resolved unconflicted : StateMap) : StateMap :=
  fun key => (unconflicted key).or (resolved key)

def resolve (ruma : Ruma) (store : EventStore)
    (eventExists : EventId → Bool) (orders : ResolveOrders) (rounds : Nat)
    (roomVersion : RoomVersionId) (stateSets : List (StateSet EventId))
    (authChainSets : List (IdSet EventId)) : Bounded StateMap :=
  let separated := separate orders.occurrences orders.counts stateSets
  if separated.conflicted.entries.isEmpty then .ok separated.unconflicted
  else do
    let (subgraph, initialState) ← subgraphAndInitialState store orders rounds
      (stateResolutionVersion roomVersion) separated
    let conflicted := allConflicted orders eventExists authChainSets
      separated.conflicted subgraph
    let resolved ← resolveConflicted ruma store orders rounds roomVersion
      conflicted initialState
    return extendWith resolved separated.unconflicted

end ArcanaServer.StateRes
