import ArcanaServer.Matrix.Event
import ArcanaServer.StateRes.TopologicalSortSpec
import Mathlib.Data.String.Basic

namespace ArcanaServer.Api

open Library ArcanaServer.Matrix StateRes List Prod

/-! Parsing of an incoming PDU.  `parse` is the identifier parser. -/

section

variable (parse : String → Except String EventId)

def expectEventIdArray (value : CanonicalJsonObject) (field : String) :
    Except String (List EventId) := do
  let entry ← match value.lookup field with
    | some entry => .ok entry
    | none => .error s!"missing field {field} on PDU"
  let elements ← match entry.asArray with
    | some elements => .ok elements
    | none => .error s!"expected an array PDU field {field}"
  elements.mapM (fun element => do
    let text ← match element.asStr with
      | some text => .ok text
      | none => .error s!"expected an array of event IDs for {field}"
    match parse text with
      | .ok eventId => .ok eventId
      | .error reason => .error s!"invalid event ID in {field}: {reason}")

def validatePdu (pdu : CanonicalJsonObject) : Except String Unit := do
  let authEvents ← expectEventIdArray parse pdu "auth_events"
  if authEvents.length > 10 then
    .error "PDU has too many auth events"
  else
    let prevEvents ← expectEventIdArray parse pdu "prev_events"
    if prevEvents.length > 20 then
      .error "PDU has too many prev events"
    else .ok ()

/-- The value that `parse_incoming_pdu` returns for a PDU it accepts. -/
structure Parsed where
  roomId : RoomId
  eventId : EventId
  value : CanonicalJsonObject
  validated : validatePdu parse value = .ok ()

inductive TransactionError where
  | shuttingDown
  deriving DecidableEq, Repr

inductive RoomFailure where
  | transaction (error : TransactionError)
  | panic (message : String)
  deriving DecidableEq, Repr

abbrev PduMap := AList (fun _ : EventId => CanonicalJsonObject)

/-- What the rest of the server answers while a room is handled: whether it is
still running before the n-th PDU, and how handling that PDU ends. -/
structure Server where
  running : Nat → Bool
  handleIncomingPdu : Nat → ServerName → RoomId → EventId →
    CanonicalJsonObject → Except String Unit

def unwrapOption {α : Type} : Option α → Outcome α
  | some value => .ok value
  | none => .error (.panic "called `Option::unwrap()` on a `None` value")

/-- Each step was checked by `validate_pdu`, so the source unwraps it. -/
def unwrapPrevEvents (value : CanonicalJsonObject) :
    Outcome (List EventId) := do
  let entry ← unwrapOption (value.lookup "prev_events")
  let elements ← unwrapOption entry.asArray
  elements.mapM (fun element => do
    let text ← unwrapOption element.asStr
    match parse text with
      | .ok eventId => .ok eventId
      | .error reason => .error (.panic
          s!"called `Result::unwrap()` on an `Err` value: {reason}"))

def insertPrevEvents (dag : Graph EventId)
    (entry : (_ : EventId) × CanonicalJsonObject) :
    Outcome (Graph EventId) := do
  let prevEvents ← unwrapPrevEvents parse entry.2
  return dag.insert entry.1 prevEvents

def buildLocalDag (order : HashOrder) (pduMap : PduMap) :
    Outcome (List EventId) := do
  let dag ← pduMap.entries.foldlM (insertPrevEvents parse) ∅
  lexicographicalTopologicalSort (order.map dag) (fun _ => .ok (0, 0))
    order.visit

/-- The calls of `handle_incoming_pdu` in their order, and the result. -/
structure RoomRun where
  handed : List (EventId × CanonicalJsonObject)
  result : Except RoomFailure (List (EventId × Except String Unit))

def handlePdus (server : Server) (origin : ServerName) (roomId : RoomId)
    (pduMap : PduMap) : Nat → List EventId → RoomRun
  | _, [] => { handed := [], result := .ok [] }
  | position, eventId :: rest =>
      match pduMap.lookup eventId with
      | none =>
          { handed := []
            result := .error
              (.panic "sorted event IDs must be from the original map") }
      | some value =>
          if server.running position then
            let answer :=
              server.handleIncomingPdu position origin roomId eventId value
            let later :=
              handlePdus server origin roomId pduMap (position + 1) rest
            { handed := (eventId, value) :: later.handed
              result := later.result.map ((eventId, answer) :: ·) }
          else { handed := [], result := .error (.transaction .shuttingDown) }

def collectPdus (pdus : List (Parsed parse)) : PduMap :=
  pdus.foldl (fun table pdu => table.insert pdu.eventId pdu.value) ∅

def handleRoom (server : Server) (order : HashOrder) (origin : ServerName)
    (roomId : RoomId) (pdus : List (Parsed parse)) : RoomRun :=
  let pduMap := order.map (collectPdus parse pdus)
  let sortedEventIds : Except String (List EventId) :=
    if pduMap.keys.length ≥ 2 then
      match buildLocalDag parse order pduMap with
      | .ok sorted => .ok sorted
      | .error (.error _) => .ok pduMap.keys
      | .error (.panic message) => .error message
    else .ok pduMap.keys
  match sortedEventIds with
  | .ok sorted => handlePdus server origin roomId pduMap 0 sorted
  | .error message => { handed := [], result := .error (.panic message) }

def prevEventsOf (value : CanonicalJsonObject) : List EventId :=
  match expectEventIdArray parse value "prev_events" with
  | .ok prevEvents => prevEvents
  | .error _ => []

variable {value : CanonicalJsonObject}

theorem unwrapPrevEvents_eq {prevEvents : List EventId}
    (expected : expectEventIdArray parse value "prev_events" = .ok prevEvents) :
    unwrapPrevEvents parse value = .ok prevEvents := by
  unfold expectEventIdArray at expected
  unfold unwrapPrevEvents
  cases found : value.lookup "prev_events" with
  | none => simp [found, bind, Except.bind] at expected
  | some entry =>
      simp only [found, bind, Except.bind] at expected
      simp only [unwrapOption, bind, Except.bind]
      cases elements : entry.asArray with
      | none => simp [elements] at expected
      | some elements =>
          simp only [elements] at expected ⊢
          refine mapM_eq_ok_of_imp ?_ _ _ expected
          intro element eventId parsed
          cases isText : element.asStr with
          | none => simp [isText] at parsed
          | some text =>
              simp only [isText] at parsed ⊢
              cases result : parse text with
              | error reason => simp [result] at parsed
              | ok eventId' => simpa [result] using parsed

theorem Parsed.expects (pdu : Parsed parse) :
    expectEventIdArray parse pdu.value "prev_events" =
      .ok (prevEventsOf parse pdu.value) := by
  have validated := pdu.validated
  unfold validatePdu at validated
  obtain ⟨authEvents, _, rest⟩ := bind_eq_ok validated
  split at rest
  · cases rest
  · obtain ⟨prevEvents, expected, _⟩ := bind_eq_ok rest
    rw [prevEventsOf, expected]

variable (pdus : List (Parsed parse))

theorem collectPdus_snoc (pdu : Parsed parse) :
    collectPdus parse (pdus ++ [pdu]) =
      (collectPdus parse pdus).insert pdu.eventId pdu.value := by
  simp [collectPdus]

theorem lookup_collectPdus {pdus : List (Parsed parse)} {eventId : EventId}
    (found : (collectPdus parse pdus).lookup eventId = some value) :
    ∃ pdu ∈ pdus, pdu.eventId = eventId ∧ pdu.value = value := by
  induction pdus using reverseRecOn with
  | nil => simp [collectPdus] at found
  | append_singleton pdus pdu ih =>
      rw [collectPdus_snoc] at found
      by_cases same : eventId = pdu.eventId
      · subst same
        rw [AList.lookup_insert] at found
        exact ⟨pdu, by simp, rfl, by simpa using found⟩
      · rw [AList.lookup_insert_ne same] at found
        obtain ⟨earlier, member, rest⟩ := ih found
        exact ⟨earlier, mem_append_left _ member, rest⟩

theorem mem_keys_collectPdus (eventId : EventId) :
    eventId ∈ (collectPdus parse pdus).keys ↔
      ∃ pdu ∈ pdus, pdu.eventId = eventId := by
  induction pdus using reverseRecOn with
  | nil => simp [collectPdus]
  | append_singleton pdus pdu ih =>
      rw [collectPdus_snoc, mem_keys_insert, ih]
      simp only [mem_append, mem_singleton]
      constructor
      · intro known
        rcases known with same | old
        · exact ⟨pdu, .inr rfl, same.symm⟩
        · obtain ⟨earlier, member, same⟩ := old
          exact ⟨earlier, .inl member, same⟩
      · intro known
        obtain ⟨earlier, member, same⟩ := known
        rcases member with old | new
        · exact .inr ⟨earlier, old, same⟩
        · subst new
          exact .inl same.symm

def prevEvents (eventId : EventId) : List EventId :=
  match (collectPdus parse pdus).lookup eventId with
  | some value => prevEventsOf parse value
  | none => []

/-- The graph that the loop of `build_local_dag` has built from `entries`. -/
structure DagInv (entries : List ((_ : EventId) × CanonicalJsonObject))
    (dag : Graph EventId) : Prop where
  keys : ∀ eventId, eventId ∈ dag.keys ↔ eventId ∈ entries.map Sigma.fst
  edges : ∀ entry ∈ entries, edgesOf dag entry.1 = prevEventsOf parse entry.2

theorem insertPrevEvents_settles
    {entries : List ((_ : EventId) × CanonicalJsonObject)}
    {dag : Graph EventId} {entry : (_ : EventId) × CanonicalJsonObject}
    (expected : expectEventIdArray parse entry.2 "prev_events" =
      .ok (prevEventsOf parse entry.2))
    (fresh : entry.1 ∉ entries.map Sigma.fst)
    (holds : DagInv parse entries dag) :
    Settles (fun _ => False) (DagInv parse (entries ++ [entry]))
      (insertPrevEvents parse dag entry) := by
  unfold insertPrevEvents
  rw [unwrapPrevEvents_eq parse expected]
  constructor
  · intro eventId
    rw [mem_keys_insert, holds.keys]
    simp [or_comm]
  · intro other member
    rcases mem_append.mp member with old | new
    · have different : other.1 ≠ entry.1 := by
        intro same
        exact fresh (same ▸ mem_map_of_mem old)
      rw [← holds.edges other old]
      simp [edgesOf, AList.lookup_insert_ne different]
    · have : other = entry := by simpa using new
      subst this
      simp [edgesOf, AList.lookup_insert]

theorem buildDag_settles (pduMap : PduMap) (expected : ∀ entry ∈ pduMap.entries,
      expectEventIdArray parse entry.2 "prev_events" =
        .ok (prevEventsOf parse entry.2)) :
    Settles (fun _ => False) (DagInv parse pduMap.entries)
      (pduMap.entries.foldlM (insertPrevEvents parse) ∅) := by
  refine Settles.foldlM (DagInv parse) pduMap.entries [] ∅ ?_ ?_
  · constructor
    · intro eventId
      simp
    · intro entry member
      simp at member
  · intro before entry after dag split member holds
    refine insertPrevEvents_settles parse (expected entry member) ?_ holds
    have nodup := pduMap.nodupKeys
    simp only [nil_append] at split
    rw [List.NodupKeys, split, List.keys, map_append, map_cons,
      nodup_append] at nodup
    intro earlier
    exact nodup.2.2 entry.1 earlier entry.1 (by simp) rfl

theorem prevEvents_eq {pdus : List (Parsed parse)} {eventId : EventId}
    (found : (collectPdus parse pdus).lookup eventId = some value) :
    prevEvents parse pdus eventId = prevEventsOf parse value := by
  simp [prevEvents, found]

/-- The local DAG of a room is sorted into a greedy order of the PDUs, in which
the edges are the previous events, those outside the transaction included. -/
theorem buildLocalDag_spec (order : HashOrder) (pdus : List (Parsed parse)) :
    ∃ sorted, buildLocalDag parse order (order.map (collectPdus parse pdus)) =
          .ok sorted ∧
        sorted.Nodup ∧
        Topological (prevEvents parse pdus) sorted ∧
        ∀ eventId, eventId ∈ sorted ↔
          Grounded (collectPdus parse pdus).keys (prevEvents parse pdus)
            eventId := by
  have visited : ∀ entry ∈ (order.map (collectPdus parse pdus)).entries,
      (collectPdus parse pdus).lookup entry.1 = some entry.2 := by
    intro entry member
    rw [← order.lookup_map]
    exact AList.mem_lookup_iff.mpr member
  have dagSettles := buildDag_settles parse
    (order.map (collectPdus parse pdus)) (by
      intro entry member
      obtain ⟨pdu, _, _, sameValue⟩ :=
        lookup_collectPdus parse (visited entry member)
      rw [← sameValue]
      exact pdu.expects)
  obtain ⟨dag, built, holds⟩ := dagSettles.exists_ok (fun _ => id)
  have sortSettles := lexicographicalTopologicalSort_settles (order.map dag)
    (fun _ => .ok (0, 0)) (fun list => order.perm list)
  obtain ⟨sorted, result, greedy, exhausted, _⟩ :=
    sortSettles.exists_ok (by
      intro failure failed
      obtain ⟨node, _, impossible⟩ := failed
      cases impossible)
  have sameKeys : ∀ eventId, eventId ∈ (order.map dag).keys ↔
      eventId ∈ (collectPdus parse pdus).keys := by
    intro eventId
    rw [(order.keys_map_perm dag).mem_iff, holds.keys,
      ← (order.keys_map_perm (collectPdus parse pdus)).mem_iff]
    rfl
  have sameEdges : ∀ eventId ∈ (order.map dag).keys,
      edgesOf (order.map dag) eventId = prevEvents parse pdus eventId := by
    intro eventId known
    have listed := (order.keys_map_perm dag).mem_iff.mp known
    obtain ⟨entry, member, rfl⟩ := mem_map.mp ((holds.keys eventId).mp listed)
    rw [prevEvents_eq parse (visited entry member), ← holds.edges entry member,
      edgesOf, order.lookup_map, edgesOf]
  refine ⟨sorted, ?_, greedy.nodup, ?_, ?_⟩
  · unfold buildLocalDag
    rw [built]
    exact result
  · intro before eventId after split target edge
    have known : eventId ∈ (order.map dag).keys :=
      greedy.mem_nodes (split ▸ by simp)
    exact greedy.topological before eventId after split target
      (by rw [sameEdges eventId known]; exact edge)
  · intro eventId
    rw [greedy.mem_iff_grounded exhausted]
    have same : SameGraph (order.map dag).keys (collectPdus parse pdus).keys
        (edgesOf (order.map dag)) (prevEvents parse pdus) :=
      ⟨sameKeys, fun eventId known target => by
        rw [sameEdges eventId known]⟩
    exact Grounded.congr same eventId

/-- Every PDU is handed over once, after those of its previous events that
belong to the same transaction. -/
structure HandedInOrder (handed : List (EventId × CanonicalJsonObject)) :
    Prop where
  once : (handed.map fst).Nodup
  all : ∀ pdu ∈ pdus, pdu.eventId ∈ handed.map fst
  only : ∀ entry ∈ handed,
    ∃ pdu ∈ pdus, pdu.eventId = entry.1 ∧ pdu.value = entry.2
  ordered : ∀ before entry after, handed = before ++ entry :: after →
    ∀ prev ∈ prevEventsOf parse entry.2,
      (∃ pdu ∈ pdus, pdu.eventId = prev) → prev ∈ before.map fst

theorem handlePdus_handed (server : Server) (origin : ServerName)
    (roomId : RoomId) (pduMap : PduMap) :
    ∀ (sorted : List EventId) (position : Nat),
      (∀ eventId ∈ sorted, eventId ∈ pduMap.keys) →
      let run := handlePdus server origin roomId pduMap position sorted
      (run.handed.map fst).IsPrefix sorted ∧
        (∀ entry ∈ run.handed, pduMap.lookup entry.1 = some entry.2) ∧
        (∀ offset < run.handed.length,
          server.running (position + offset) = true) ∧
        ((∀ offset < sorted.length, server.running (position + offset) = true) →
          run.handed.map fst = sorted) := by
  intro sorted
  induction sorted with
  | nil =>
      intro position _
      simp [handlePdus]
  | cons eventId rest ih =>
      intro position known
      obtain ⟨value, found⟩ := Option.isSome_iff_exists.mp
        (AList.lookup_isSome.mpr (AList.mem_keys.mpr (known eventId (by simp))))
      obtain ⟨isPrefix, values, ran, complete⟩ := ih (position + 1)
        (fun other member => known other (mem_cons_of_mem _ member))
      simp only [handlePdus, found]
      cases running : server.running position with
      | false =>
          refine ⟨ nil_prefix, by simp, by simp, ?_⟩
          intro always
          have := always 0 (by simp)
          simp [running] at this
      | true =>
          simp only [if_true]
          refine ⟨?_, ?_, ?_, ?_⟩
          · rw [map_cons, cons_prefix_cons]
            exact ⟨rfl, isPrefix⟩
          · intro entry member
            rcases mem_cons.mp member with rfl | later
            · exact found
            · exact values entry later
          · intro offset bound
            cases offset with
            | zero => exact running
            | succ offset =>
                have := ran offset (by simpa using bound)
                rw [show position + (offset + 1) = position + 1 + offset by
                  omega]
                exact this
          · intro always
            rw [map_cons, complete]
            intro offset bound
            have := always (offset + 1) (by simpa using bound)
            rw [show position + (offset + 1) = position + 1 + offset by
              omega] at this
            exact this

/-- The order in which a room's PDUs are visited. -/
structure VisitOrder (sorted : List EventId) : Prop where
  nodup : sorted.Nodup
  known : ∀ eventId ∈ sorted, eventId ∈ (collectPdus parse pdus).keys
  complete : (∀ eventId ∈ (collectPdus parse pdus).keys, eventId ∈ sorted) ↔
    (collectPdus parse pdus).keys.length ≤ 1 ∨
      ∀ eventId ∈ (collectPdus parse pdus).keys,
        ∀ prev ∈ prevEvents parse pdus eventId,
          prev ∈ (collectPdus parse pdus).keys
  ordered : ∀ before eventId after, sorted = before ++ eventId :: after →
    ∀ prev ∈ prevEvents parse pdus eventId,
      prev ∈ (collectPdus parse pdus).keys → prev ∈ before

variable (server : Server) (order : HashOrder) (origin : ServerName)
  (roomId : RoomId) (pdus : List (Parsed parse))

section

variable
  (acyclic : Acyclic (collectPdus parse pdus).keys (prevEvents parse pdus))
include acyclic

theorem handleRoom_eq :
    ∃ sorted, VisitOrder parse pdus sorted ∧
      handleRoom parse server order origin roomId pdus =
        handlePdus server origin roomId (order.map (collectPdus parse pdus))
          0 sorted := by
  have sameKeys := order.keys_map_perm (collectPdus parse pdus)
  by_cases several : (collectPdus parse pdus).keys.length ≥ 2
  · obtain ⟨sorted, built, nodup, topological, grounded⟩ :=
      buildLocalDag_spec parse order pdus
    refine ⟨sorted, ⟨nodup, ?_, ?_, ?_⟩, ?_⟩
    · intro eventId member
      cases (grounded eventId).mp member with
      | intro known _ => exact known
    · have closed := acyclic.all_grounded_iff_closed
      constructor
      · intro complete
        right
        apply closed.mp
        intro eventId known
        exact (grounded eventId).mp (complete eventId known)
      · intro condition eventId known
        rcases condition with few | inside
        · omega
        · exact (grounded eventId).mpr (closed.mpr inside eventId known)
    · intro before eventId after split prev edge _
      exact topological before eventId after split prev edge
    · have many : (order.map (collectPdus parse pdus)).keys.length ≥ 2 := by
        rw [sameKeys.length_eq]
        exact several
      simp only [handleRoom, many, if_true, built]
  · refine ⟨(order.map (collectPdus parse pdus)).keys, ⟨?_, ?_, ?_, ?_⟩, ?_⟩
    · exact (order.map (collectPdus parse pdus)).nodupKeys
    · exact fun eventId member => sameKeys.mem_iff.mp member
    · constructor
      · intro _
        left
        omega
      · intro _ eventId known
        exact sameKeys.mem_iff.mpr known
    · -- The only PDU cannot name itself, so no order is asked of it.
      intro before eventId after split prev edge known
      have member : eventId ∈ (collectPdus parse pdus).keys := by
        apply sameKeys.mem_iff.mp
        rw [split]
        simp
      have same : prev = eventId := by
        have short : (collectPdus parse pdus).keys.length ≤ 1 := by omega
        exact eq_of_mem_of_length_le_one short known member
      subst same
      exact absurd (Relation.TransGen.single ⟨member, known, edge⟩)
        (acyclic prev)
    · have few : ¬ (order.map (collectPdus parse pdus)).keys.length ≥ 2 := by
        rw [sameKeys.length_eq]
        exact several
      simp only [handleRoom, few, if_false]

/-- A room's PDUs are all handed over, once and in order, exactly when the
server keeps running and no PDU of a room with several names a previous event
outside the transaction. -/
theorem handleRoom_handedInOrder_iff :
    HandedInOrder parse pdus
        (handleRoom parse server order origin roomId pdus).handed ↔
      (∀ position < (collectPdus parse pdus).keys.length,
        server.running position = true) ∧
      ((collectPdus parse pdus).keys.length ≤ 1 ∨
        ∀ eventId ∈ (collectPdus parse pdus).keys,
          ∀ prev ∈ prevEvents parse pdus eventId,
            prev ∈ (collectPdus parse pdus).keys) := by
  obtain ⟨sorted, visit, runEq⟩ :=
    handleRoom_eq parse server order origin roomId pdus acyclic
  rw [runEq, ← visit.complete]
  have keysNodup : (collectPdus parse pdus).keys.Nodup :=
    (collectPdus parse pdus).nodupKeys
  obtain ⟨isPrefix, values, ran, complete⟩ :=
    handlePdus_handed server origin roomId
      (order.map (collectPdus parse pdus)) sorted 0 (by
        intro eventId member
        exact (order.keys_map_perm _).mem_iff.mpr (visit.known eventId member))
  have shorter : sorted.length ≤ (collectPdus parse pdus).keys.length :=
    (subperm_of_subset visit.nodup visit.known).length_le
  constructor
  · intro handed
    have covers : ∀ eventId ∈ (collectPdus parse pdus).keys,
        eventId ∈ (handlePdus server origin roomId
          (order.map (collectPdus parse pdus)) 0 sorted).handed.map
            fst := by
      intro eventId known
      obtain ⟨pdu, member, rfl⟩ :=
        (mem_keys_collectPdus parse pdus eventId).mp known
      exact handed.all pdu member
    refine ⟨fun position bound => ?_, fun eventId known =>
      isPrefix.subset (covers eventId known)⟩
    have longer := (subperm_of_subset keysNodup covers).length_le
    have := ran position (by rw [length_map] at longer; omega)
    simpa using this
  · intro condition
    obtain ⟨running, covers⟩ := condition
    have handedEq := complete (by
      intro offset bound
      simpa using running offset (by omega))
    refine ⟨?_, ?_, ?_, ?_⟩
    · rw [handedEq]
      exact visit.nodup
    · intro pdu member
      rw [handedEq]
      exact covers pdu.eventId
        ((mem_keys_collectPdus parse pdus _).mpr ⟨pdu, member, rfl⟩)
    · intro entry member
      have found := values entry member
      rw [order.lookup_map] at found
      exact lookup_collectPdus parse found
    · intro before entry after split prev edge inside
      have found := values entry (by rw [split]; simp)
      rw [order.lookup_map] at found
      have sortedSplit : sorted =
          before.map fst ++ entry.1 :: after.map fst := by
        rw [← handedEq, split]
        simp
      refine visit.ordered _ entry.1 _ sortedSplit prev ?_
        ((mem_keys_collectPdus parse pdus prev).mpr inside)
      rw [prevEvents_eq parse found]
      exact edge

end

end

/-! A transaction with two PDUs on top of an event that the server already
has, as almost every transaction is. -/

def acceptId : String → Except String EventId := fun text => .ok text

def extremityValue : CanonicalJsonObject :=
  [("auth_events", .arr []), ("prev_events", .arr [.str "$known"])]

def firstValue : CanonicalJsonObject :=
  [("auth_events", .arr []), ("prev_events", .arr [])]

def followerValue : CanonicalJsonObject :=
  [("auth_events", .arr []), ("prev_events", .arr [.str "$first"])]

def siblings : List (Parsed acceptId) :=
  [⟨"!room", "$left", extremityValue, rfl⟩,
    ⟨"!room", "$right", extremityValue, rfl⟩]

def chain : List (Parsed acceptId) :=
  [⟨"!room", "$second", followerValue, rfl⟩,
    ⟨"!room", "$first", firstValue, rfl⟩]

def steadyServer : Server where
  running := fun _ => true
  handleIncomingPdu := fun _ _ _ _ _ => .ok ()

theorem siblings_not_handedInOrder : ¬ HandedInOrder acceptId siblings
      (handleRoom acceptId steadyServer HashOrder.inserted "other" "!room"
        siblings).handed := by
  have handed : (handleRoom acceptId steadyServer HashOrder.inserted "other"
      "!room" siblings).handed.map fst = [] := by decide
  intro inOrder
  have member := inOrder.all _ mem_cons_self
  rw [handed] at member
  cases member

theorem chain_acyclic :
    Acyclic (collectPdus acceptId chain).keys (prevEvents acceptId chain) := by
  apply Acyclic.of_rank (fun eventId => if eventId = "$second" then 1 else 0)
  decide

theorem chain_handedInOrder : HandedInOrder acceptId chain
      (handleRoom acceptId steadyServer HashOrder.inserted "other" "!room"
        chain).handed :=
  (handleRoom_handedInOrder_iff acceptId steadyServer HashOrder.inserted
    "other" "!room" chain chain_acyclic).mpr
    ⟨fun _ _ => rfl, .inr (by decide)⟩

end ArcanaServer.Api
