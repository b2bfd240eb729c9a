import ArcanaServer.StateRes.CheckOrder
import ArcanaServer.StateRes.ConflictedSubgraph
import ArcanaServer.StateRes.TopologicalSortSpec

namespace ArcanaServer.StateRes

open Library ArcanaServer.Matrix Relation List Option HashOrder

def InnerEdge (store : EventStore) (authDiff : List EventId)
    (id next : EventId) : Prop :=
  AuthEdge store.authEventsOf id next ∧ next ∈ authDiff

def Reachable (store : EventStore) (authDiff roots : List EventId)
    (id : EventId) : Prop :=
  ∃ root ∈ roots, ReflTransGen (InnerEdge store authDiff) root id

structure GraphSpec (store : EventStore) (authDiff roots : List EventId)
    (graph : Graph EventId) : Prop where
  keys : ∀ id, id ∈ graph.keys ↔ Reachable store authDiff roots id
  edges : ∀ id ∈ graph.keys, ∀ next,
    next ∈ edgesOf graph id ↔ InnerEdge store authDiff id next

theorem Reachable.mem {store : EventStore} {authDiff roots : List EventId}
    {id : EventId} (reachable : Reachable store authDiff roots id)
    (inside : ∀ root ∈ roots, root ∈ authDiff) : id ∈ authDiff := by
  obtain ⟨root, member, path⟩ := reachable
  cases path with
  | refl => exact inside _ member
  | tail _ edge => exact edge.2

def joinEdges (edges added : List EventId) : List EventId :=
  added.foldl (fun edges id => edges.insert id) edges

variable {edges : List EventId}

theorem mem_joinEdges {added : List EventId} {id : EventId} :
    id ∈ joinEdges edges added ↔ id ∈ edges ∨ id ∈ added := by
  induction added generalizing edges with
  | nil => simp [joinEdges]
  | cons first rest ih =>
      have step : joinEdges edges (first :: rest) =
          joinEdges (edges.insert first) rest := rfl
      rw [step, ih, mem_insert_iff, mem_cons]
      tauto

variable {graph : Graph EventId}

theorem edgesOf_insert {id : EventId} :
    edgesOf (graph.insert id edges) id = edges := by
  simp [edgesOf]

theorem edgesOf_insert_ne {id other : EventId} (different : other ≠ id) :
    edgesOf (graph.insert id edges) other = edgesOf graph other := by
  simp [edgesOf, AList.lookup_insert_ne different]

def unwalked (authDiff : List EventId) (graph : Graph EventId)
    (eventId : EventId) (authEvents : List EventId) : List EventId :=
  authEvents.filter (fun id =>
    id ∈ authDiff ∧ ¬ (id = eventId ∨ id ∈ graph.keys))

theorem foldl_addAuthEdge {authDiff : List EventId} {eventId : EventId} :
    ∀ (authEvents state edges : List EventId),
      authEvents.foldl (addAuthEdge authDiff eventId)
          (state, graph.insert eventId edges) =
        ((unwalked authDiff graph eventId authEvents).reverse ++ state,
          graph.insert eventId
            (joinEdges edges (authEvents.filter (· ∈ authDiff)))) := by
  intro authEvents
  induction authEvents with
  | nil => intro state edges; rfl
  | cons id rest ih =>
      intro state edges
      rw [foldl_cons]
      rcases Decidable.em (id ∈ authDiff) with inside | outside
      · have step : addAuthEdge authDiff eventId
            (state, graph.insert eventId edges) id =
              (if id = eventId ∨ id ∈ graph.keys then state else id :: state,
                graph.insert eventId (edges.insert id)) := by
          simp only [addAuthEdge, inside, if_true, mem_keys_insert,
            AList.insert_insert, edgesOf_insert]
        rw [step, ih]
        simp only [Prod.mk.injEq]
        refine ⟨?_, ?_⟩
        · rcases Decidable.em (id = eventId ∨ id ∈ graph.keys) with
            known | fresh
          · have dropped : unwalked authDiff graph eventId (id :: rest) =
                unwalked authDiff graph eventId rest :=
              filter_cons_of_neg
                (by simpa [inside, or_iff_not_imp_left] using known)
            rw [dropped, if_pos known]
          · have kept : unwalked authDiff graph eventId (id :: rest) =
                id :: unwalked authDiff graph eventId rest :=
              filter_cons_of_pos (by simpa [inside] using fresh)
            rw [kept, if_neg fresh]
            simp
        · simp [inside, joinEdges]
      · have step : addAuthEdge authDiff eventId
            (state, graph.insert eventId edges) id =
              (state, graph.insert eventId edges) := if_neg outside
        rw [step, ih]
        simp [unwalked, outside]

/-- The walk between two rounds, with the events of `state` still to go to. -/
structure ChainInv (store : EventStore) (authDiff roots state : List EventId)
    (graph : Graph EventId) : Prop where
  reached : ∀ id, id ∈ graph.keys ∨ id ∈ state →
    Reachable store authDiff roots id
  edges : ∀ id ∈ graph.keys, ∀ next,
    next ∈ edgesOf graph id ↔ InnerEdge store authDiff id next
  closed : ∀ id ∈ graph.keys, ∀ next, InnerEdge store authDiff id next →
    next ∈ graph.keys ∨ next ∈ state
  roots : ∀ root ∈ roots, root ∈ graph.keys ∨ root ∈ state

section

variable {store : EventStore} {authDiff roots : List EventId}

theorem innerEdge_iff {id next : EventId} : InnerEdge store authDiff id next ↔
      next ∈ ((store.authEventsOf id).getD []).filter (· ∈ authDiff) := by
  unfold InnerEdge AuthEdge
  cases store.authEventsOf id <;> simp

variable {graph : Graph EventId}

theorem ChainInv.round {eventId : EventId} {state : List EventId}
    (holds : ChainInv store authDiff roots (eventId :: state) graph) :
    ChainInv store authDiff roots ((unwalked authDiff graph eventId
        ((store.authEventsOf eventId).getD [])).reverse ++ state)
      (graph.insert eventId (joinEdges (edgesOf graph eventId)
        (((store.authEventsOf eventId).getD []).filter (· ∈ authDiff)))) := by
  have edgesAt : ∀ next, next ∈ joinEdges (edgesOf graph eventId)
      (((store.authEventsOf eventId).getD []).filter (· ∈ authDiff)) ↔
        InnerEdge store authDiff eventId next := by
    intro next
    rw [mem_joinEdges, ← innerEdge_iff]
    constructor
    · rintro (old | new)
      · have known : eventId ∈ graph.keys := by
          by_contra unknown
          have missing : graph.lookup eventId = none :=
            AList.lookup_eq_none.mpr unknown
          simp [edgesOf, missing] at old
        exact (holds.edges eventId known next).mp old
      · exact new
    · exact .inr
  have walked : ∀ id, id ∈ unwalked authDiff graph eventId
      ((store.authEventsOf eventId).getD []) ↔
        InnerEdge store authDiff eventId id ∧
          ¬ (id = eventId ∨ id ∈ graph.keys) := by
    intro id
    rw [innerEdge_iff]
    simp [unwalked, and_assoc]
  refine ⟨?_, ?_, ?_, ?_⟩
  · rintro id (key | waiting)
    · rcases mem_keys_insert.mp key with same | old
      · exact holds.reached id (.inr (by simp [same]))
      · exact holds.reached id (.inl old)
    · rcases mem_append.mp waiting with new | old
      · obtain ⟨edge, _⟩ := (walked id).mp (mem_reverse.mp new)
        obtain ⟨root, member, path⟩ := holds.reached eventId (.inr (by simp))
        exact ⟨root, member, path.tail edge⟩
      · exact holds.reached id (.inr (mem_cons_of_mem _ old))
  · intro id key next
    rcases Decidable.em (id = eventId) with same | different
    · subst same
      rw [edgesOf_insert]
      exact edgesAt next
    · have old : id ∈ graph.keys :=
        (mem_keys_insert.mp key).resolve_left different
      rw [edgesOf_insert_ne different]
      exact holds.edges id old next
  · intro id key next edge
    rw [mem_keys_insert, mem_append, mem_reverse]
    rcases Decidable.em (next = eventId ∨ next ∈ graph.keys) with known | fresh
    · exact .inl known
    · rcases Decidable.em (id = eventId) with same | different
      · subst same
        exact .inr (.inl ((walked next).mpr ⟨edge, fresh⟩))
      · have old : id ∈ graph.keys :=
          (mem_keys_insert.mp key).resolve_left different
        rcases holds.closed id old next edge with known | waiting
        · exact absurd (.inr known) fresh
        · rcases mem_cons.mp waiting with same | later
          · exact absurd (.inl same) fresh
          · exact .inr (.inr later)
  · intro root member
    rw [mem_keys_insert, mem_append]
    rcases holds.roots root member with known | waiting
    · exact .inl (.inr known)
    · rcases mem_cons.mp waiting with same | later
      · exact .inl (.inl same)
      · exact .inr (.inr later)

theorem ChainInv.graphSpec (holds : ChainInv store authDiff roots [] graph) :
    GraphSpec store authDiff roots graph := by
  refine ⟨fun id => ⟨fun key => holds.reached id (.inl key), ?_⟩, holds.edges⟩
  rintro ⟨root, member, path⟩
  induction path with
  | refl => simpa using holds.roots root member
  | tail _ edge ih => simpa using holds.closed _ ih _ edge

theorem addChainLoop_graphSpec {rounds : Nat} {state : List EventId}
    {final : Graph EventId} (holds : ChainInv store authDiff roots state graph)
    (result : addChainLoop store authDiff rounds state graph = .ok final) :
    GraphSpec store authDiff roots final := by
  induction rounds generalizing state graph with
  | zero => cases result
  | succ rounds ih =>
      cases state with
      | nil =>
          cases result
          exact holds.graphSpec
      | cons eventId state =>
          simp only [addChainLoop, foldl_addAuthEdge] at result
          exact ih holds.round result

theorem GraphSpec.start (spec : GraphSpec store authDiff roots graph)
    (root : EventId) :
    ChainInv store authDiff (roots ++ [root]) [root] graph := by
  have keep : ∀ id, Reachable store authDiff roots id →
      Reachable store authDiff (roots ++ [root]) id := by
    rintro id ⟨source, member, path⟩
    exact ⟨source, mem_append_left _ member, path⟩
  refine ⟨?_, spec.edges, ?_, ?_⟩
  · rintro id (key | waiting)
    · exact keep id ((spec.keys id).mp key)
    · have same : id = root := by simpa using waiting
      subst same
      exact ⟨id, by simp, .refl⟩
  · intro id key next edge
    obtain ⟨source, member, path⟩ := (spec.keys id).mp key
    exact .inl ((spec.keys next).mpr ⟨source, member, path.tail edge⟩)
  · intro other member
    rcases mem_append.mp member with old | new
    · exact .inl ((spec.keys other).mpr ⟨other, old, .refl⟩)
    · exact .inr new

theorem graphSpec_empty : GraphSpec store authDiff [] ∅ := by
  refine ⟨fun id => ⟨fun key => ?_, ?_⟩, ?_⟩
  · simp at key
  · rintro ⟨root, member, _⟩
    cases member
  · intro id key
    simp at key

theorem foldlM_addChain_graphSpec {rounds : Nat} :
    ∀ (rest visited : List EventId) {graph final : Graph EventId},
      GraphSpec store authDiff visited graph →
      rest.foldlM (addEventAndAuthChainToGraph store authDiff rounds) graph =
        .ok final →
      GraphSpec store authDiff (visited ++ rest) final := by
  intro rest
  induction rest with
  | nil =>
      intro visited graph final spec result
      cases result
      simpa using spec
  | cons root rest ih =>
      intro visited graph final spec result
      rw [foldlM_cons] at result
      obtain ⟨next, step, later⟩ := bind_eq_ok result
      have extended := addChainLoop_graphSpec (spec.start root) step
      simpa using ih (visited ++ [root]) extended later

/-- The walk adds what can be reached from the events to sort. -/
theorem powerGraph_spec {rounds : Nat} {eventsToSort : List EventId}
    (result : eventsToSort.foldlM
      (addEventAndAuthChainToGraph store authDiff rounds) ∅ = .ok graph) :
    GraphSpec store authDiff eventsToSort graph :=
  foldlM_addChain_graphSpec eventsToSort [] graphSpec_empty result

end

theorem keys_visitEdges (order : HashOrder) (graph : Graph EventId) :
    (visitEdges order graph).keys = graph.keys := by
  simp [AList.keys, visitEdges, List.keys, Function.comp_def]

theorem lookup_visitEdges (order : HashOrder) (graph : Graph EventId)
    (id : EventId) : (visitEdges order graph).lookup id =
      (graph.lookup id).map order.visit := by
  cases found : graph.lookup id with
  | none =>
      have unknown : id ∉ (visitEdges order graph).keys := by
        rw [keys_visitEdges]
        exact AList.lookup_eq_none.mp found
      exact AList.lookup_eq_none.mpr unknown
  | some edges =>
      have listed : (⟨id, edges⟩ : (_ : EventId) × List EventId) ∈
          graph.entries := AList.mem_lookup_iff.mp found
      have visited : (⟨id, order.visit edges⟩ :
          (_ : EventId) × List EventId) ∈ (visitEdges order graph).entries :=
        mem_map_of_mem listed
      exact AList.mem_lookup_iff.mpr visited

variable {graph : Graph EventId}

theorem mem_edgesOf_visited {edges entries : HashOrder} {id next : EventId} :
    next ∈ edgesOf (visitEdges edges (entries.map graph)) id ↔
      next ∈ edgesOf graph id := by
  unfold edgesOf
  rw [lookup_visitEdges, lookup_map]
  cases graph.lookup id with
  | none => simp
  | some targets => simpa using (edges.perm targets).mem_iff

theorem mem_keys_visited {edges entries : HashOrder} {id : EventId} :
    id ∈ (visitEdges edges (entries.map graph)).keys ↔ id ∈ graph.keys := by
  rw [keys_visitEdges]
  exact (entries.keys_map_perm graph).mem_iff

theorem lookup_eventToPl {ruma : Ruma} {store : EventStore}
    {orders : SortOrders} {id : EventId} (known : id ∈ graph.keys) :
    (eventToPl ruma store orders graph).lookup id =
      getPowerLevelForSender ruma store (fiveAtOnce (orders.authEvents id))
        id := by
  have listed : ∀ level, (id, level) ∈ (orders.levels.bufferUnordered
      (orders.keys.visit graph.keys)).filterMap (fun id =>
        (getPowerLevelForSender ruma store (fiveAtOnce (orders.authEvents id))
          id).map (fun level => (id, level))) ↔
      getPowerLevelForSender ruma store (fiveAtOnce (orders.authEvents id))
        id = some level := by
    intro level
    rw [mem_filterMap]
    constructor
    · rintro ⟨other, _, found⟩
      obtain ⟨otherLevel, levelEq, same⟩ := map_eq_some_iff.mp found
      cases same
      exact levelEq
    · intro found
      refine ⟨id, ?_, by rw [found]; rfl⟩
      rw [Completion.mem_bufferUnordered, (orders.keys.perm _).mem_iff]
      exact known
  cases level : getPowerLevelForSender ruma store
      (fiveAtOnce (orders.authEvents id)) id with
  | none =>
      cases found : (eventToPl ruma store orders graph).lookup id with
      | none => rfl
      | some other =>
          have absurdLevel := (listed other).mp (mem_of_lookup_collect found)
          rw [level] at absurdLevel
          cases absurdLevel
  | some value =>
      refine lookup_collect ((listed value).mpr level) ?_
      intro other member
      have otherLevel := (listed other).mp member
      rw [level] at otherLevel
      exact (some.inj otherLevel).symm

theorem GraphSpec.visited {store : EventStore}
    {authDiff roots : List EventId} {edges entries : HashOrder}
    (spec : GraphSpec store authDiff roots graph) :
    GraphSpec store authDiff roots (visitEdges edges (entries.map graph)) := by
  refine ⟨fun id => ?_, fun id key next => ?_⟩
  · rw [mem_keys_visited]
    exact spec.keys id
  · rw [mem_edgesOf_visited]
    exact spec.edges id (mem_keys_visited.mp key) next

section

variable {ruma : Ruma} {store : EventStore} {orders : SortOrders}
  {rounds : Nat} {eventsToSort authDiff sorted : List EventId}

/-- A successful power sort is a least-first order of what was reached. -/
theorem reverseTopologicalPowerSort_greedy
    (result : reverseTopologicalPowerSort ruma store orders rounds
      eventsToSort authDiff = .ok sorted) :
    ∃ graph le, GraphSpec store authDiff eventsToSort graph ∧
      Greedy le graph.keys (edgesOf graph) sorted ∧
      Exhausted graph.keys (edgesOf graph) sorted := by
  obtain ⟨graph, built, sorting⟩ := bind_eq_ok result
  have settled := lexicographicalTopologicalSort_settles
    (visitEdges orders.edges (orders.graph.map graph))
    (powerSortKey store (eventToPl ruma store orders graph))
    orders.references.perm
  obtain ⟨greedy, exhausted, _⟩ := settled.of_ok (bounded_eq_ok.mp sorting)
  exact ⟨_, _, (powerGraph_spec built).visited, greedy, exhausted⟩

theorem reverseTopologicalPowerSort_mem
    (inside : ∀ id ∈ eventsToSort, id ∈ authDiff)
    (result : reverseTopologicalPowerSort ruma store orders rounds
      eventsToSort authDiff = .ok sorted) :
    ∀ id ∈ sorted, id ∈ authDiff := by
  obtain ⟨graph, le, spec, greedy, _⟩ :=
    reverseTopologicalPowerSort_greedy result
  intro id member
  exact ((spec.keys id).mp (greedy.mem_nodes member)).mem inside

theorem reverseTopologicalPowerSort_nodup
    (result : reverseTopologicalPowerSort ruma store orders rounds
      eventsToSort authDiff = .ok sorted) : sorted.Nodup := by
  obtain ⟨graph, le, _, greedy, _⟩ := reverseTopologicalPowerSort_greedy result
  exact greedy.nodup

theorem GraphSpec.closed (spec : GraphSpec store authDiff eventsToSort graph) :
    ∀ id ∈ graph.keys, ∀ next ∈ edgesOf graph id, next ∈ graph.keys := by
  intro id key next edge
  obtain ⟨root, member, path⟩ := (spec.keys id).mp key
  have inner := (spec.edges id key next).mp edge
  exact (spec.keys next).mpr ⟨root, member, path.tail inner⟩

theorem GraphSpec.acyclic (spec : GraphSpec store authDiff eventsToSort graph)
    (noLoop : ∀ id, ¬ TransGen (AuthEdge store.authEventsOf) id id) :
    Acyclic graph.keys (edgesOf graph) := by
  intro id loop
  refine noLoop id (TransGen.mono (fun id next inner => ?_) id id loop)
  exact ((spec.edges id inner.1 next).mp inner.2.2).1

/-- All control events are taken from the full conflicted set, so that the auth
events in the output are those that the graph has an edge to. -/
theorem reverseTopologicalPowerSort_covers
    (noLoop : ∀ id, ¬ TransGen (AuthEdge store.authEventsOf) id id)
    (result : reverseTopologicalPowerSort ruma store orders rounds
      eventsToSort authDiff = .ok sorted) :
    (∀ id, id ∈ sorted ↔ Reachable store authDiff eventsToSort id) ∧
    sorted.Nodup ∧
    ((∀ id ∈ eventsToSort, id ∈ authDiff) →
      ∀ before id after, sorted = before ++ id :: after →
        ∀ next ∈ sorted, AuthEdge store.authEventsOf id next →
          next ∈ before) := by
  obtain ⟨graph, le, spec, greedy, exhausted⟩ :=
    reverseTopologicalPowerSort_greedy result
  have grounded := (spec.acyclic noLoop).all_grounded_iff_closed.mpr spec.closed
  have sortedKeys : ∀ id, id ∈ sorted ↔ id ∈ graph.keys := by
    intro id
    rw [greedy.mem_iff_grounded exhausted]
    refine ⟨?_, grounded id⟩
    rintro ⟨known, _⟩
    exact known
  refine ⟨fun id => (sortedKeys id).trans (spec.keys id), greedy.nodup, ?_⟩
  intro inside before id after split next listed cited
  have known : id ∈ graph.keys := (sortedKeys id).mp (by simp [split])
  have nextInside : next ∈ authDiff :=
    ((spec.keys next).mp ((sortedKeys next).mp listed)).mem inside
  exact greedy.topological before id after split next
    ((spec.edges id known next).mpr ⟨cited, nextInside⟩)

end

namespace TopicRoom

def sortOrders : SortOrders where
  keys := inserted
  levels := Completion.oldestFirst 32 width_positive
  authEvents := fun _ _ => 0
  graph := inserted
  edges := inserted
  references := inserted

def age (id : EventId) : Nat :=
  if id = "$room" then 0 else if id = "$join" then 1 else 2

theorem age_descends {id next : EventId}
    (cited : AuthEdge (store .v11 (fun _ => true)).authEventsOf id next) :
    age next < age id := by
  obtain ⟨authEvents, found, member⟩ := cited
  obtain ⟨event, fetched, rfl⟩ := map_eq_some_iff.mp found
  simp only [store, fetch] at fetched
  split_ifs at fetched with room join topic <;> cases fetched
  · simp [createPdu] at member
  · obtain rfl : next = "$room" := by simpa [joinPdu] using member
    simp [age, join]
  · rcases mem_cons.mp (show next ∈ ["$room", "$join"] from member) with
      rfl | last
    · simp [age, room, join]
    · cases mem_singleton.mp last
      simp [age, room, join]

theorem age_descends_path {id next : EventId} (path : TransGen
    (AuthEdge (store .v11 (fun _ => true)).authEventsOf) id next) :
    age next < age id := by
  induction path with
  | single edge => exact age_descends edge
  | tail _ edge ih => exact (age_descends edge).trans ih

theorem sorts_join :
    (∀ id, id ∈ ["$join", "$t"] ↔
      Reachable (store .v11 (fun _ => true)) ["$t", "$join"] ["$t"] id) ∧
    ["$join", "$t"].Nodup ∧
    ((∀ id ∈ ["$t"], id ∈ ["$t", "$join"]) →
      ∀ before id after, ["$join", "$t"] = before ++ id :: after →
        ∀ next ∈ ["$join", "$t"],
          AuthEdge (store .v11 (fun _ => true)).authEventsOf id next →
            next ∈ before) := by
  refine reverseTopologicalPowerSort_covers (fun id loop => ?_)
    (show reverseTopologicalPowerSort plainRuma _ sortOrders 8 _ _ = _ by
      decide +kernel)
  exact (age_descends_path loop).false

def postdated (event : Pdu) : Pdu :=
  if event.eventId = "$join" then { event with originServerTs := 3 } else event

/-- The join has a later timestamp than the topics that cite it. -/
def lateJoin : EventStore where
  fetch id := ((store .v11 (fun _ => true)).fetch id).map postdated
  named := by
    intro id event found
    obtain ⟨sent, fetched, rfl⟩ := map_eq_some_iff.mp found
    have named := (store .v11 (fun _ => true)).named fetched
    unfold postdated
    split <;> exact named

theorem lateJoin_authEventsOf :
    lateJoin.authEventsOf = (store .v11 (fun _ => true)).authEventsOf := by
  have same (event : Pdu) : (postdated event).authEvents = event.authEvents := by
    unfold postdated
    split <;> rfl
  funext id
  simp [EventStore.authEventsOf, lateJoin, same, Function.comp_def]

/-- A given event outside the full conflicted set gets no edge, so that the one
that cites it may come first. -/
theorem topic_before_join :
    (∀ id, ¬ TransGen (AuthEdge lateJoin.authEventsOf) id id) ∧
    ∃ sorted, reverseTopologicalPowerSort plainRuma lateJoin sortOrders 8
        ["$t", "$join"] ["$t"] = .ok sorted ∧
      ¬ ∀ before id after, sorted = before ++ id :: after →
        ∀ next ∈ sorted, AuthEdge lateJoin.authEventsOf id next →
          next ∈ before := by
  refine ⟨fun id loop => ?_, ["$t", "$join"], by decide +kernel, fun ordered => ?_⟩
  · rw [lateJoin_authEventsOf] at loop
    exact (age_descends_path loop).false
  · cases ordered [] "$t" ["$join"] rfl "$join" (by decide) ⟨_, rfl, by decide⟩

end TopicRoom

section

variable {store : EventStore} {authDiff : List EventId}
  {weight : EventId → Nat}

section

variable (weighs : Weighs (fun id => (store.authEventsOf id).getD []) weight)
  {rounds : Nat}
include weighs

theorem addChainLoop_finishes {state : List EventId} {graph : Graph EventId}
    (enough : load weight state < rounds) :
    ∃ final, addChainLoop store authDiff rounds state graph = .ok final := by
  induction rounds generalizing state graph with
  | zero => exact absurd enough (Nat.not_lt_zero _)
  | succ rounds ih =>
      cases state with
      | nil => exact ⟨graph, rfl⟩
      | cons eventId state =>
          simp only [addChainLoop, foldl_addAuthEdge]
          have heavier : load weight ((store.authEventsOf eventId).getD []) <
              weight eventId := weighs eventId
          have walked : load weight (unwalked authDiff graph eventId
              ((store.authEventsOf eventId).getD [])) ≤
                load weight ((store.authEventsOf eventId).getD []) :=
            load_sublist weight filter_sublist
          refine ih ?_
          rw [load_append, load_perm weight (reverse_perm _)]
          rw [load_cons] at enough
          omega

theorem powerGraph_finishes :
    ∀ (eventsToSort : List EventId) (graph : Graph EventId),
      (∀ root ∈ eventsToSort, weight root < rounds) →
      ∃ final, eventsToSort.foldlM
        (addEventAndAuthChainToGraph store authDiff rounds) graph =
          .ok final := by
  intro eventsToSort
  induction eventsToSort with
  | nil => intro graph _; exact ⟨graph, rfl⟩
  | cons root rest ih =>
      intro graph enough
      have rootEnough : load weight [root] < rounds := by
        simpa using enough root (by simp)
      obtain ⟨next, step⟩ := addChainLoop_finishes weighs rootEnough
      obtain ⟨final, later⟩ := ih next
        (fun other member => enough other (mem_cons_of_mem _ member))
      refine ⟨final, ?_⟩
      rw [foldlM_cons]
      have first : addEventAndAuthChainToGraph store authDiff rounds graph
          root = .ok next := step
      rw [first]
      exact later

end

end

variable {store : EventStore} {authDiff : List EventId}

theorem GraphSpec.sameGraph {otherDiff roots otherRoots : List EventId}
    {graph other : Graph EventId}
    (sameDiff : ∀ id, id ∈ authDiff ↔ id ∈ otherDiff)
    (sameRoots : ∀ id, id ∈ roots ↔ id ∈ otherRoots)
    (spec : GraphSpec store authDiff roots graph)
    (otherSpec : GraphSpec store otherDiff otherRoots other) :
    SameGraph graph.keys other.keys (edgesOf graph) (edgesOf other) := by
  have inner : InnerEdge store authDiff = InnerEdge store otherDiff := by
    funext id next
    simp [InnerEdge, sameDiff]
  have known : ∀ id, id ∈ graph.keys ↔ id ∈ other.keys := by
    intro id
    rw [spec.keys, otherSpec.keys]
    simp only [Reachable, inner, sameRoots]
  refine ⟨known, fun id member next => ?_⟩
  rw [spec.edges id member, otherSpec.edges id ((known id).mp member), inner]

theorem sameGraph_visited {edges otherEdges entries otherEntries : HashOrder}
    {graph other : Graph EventId}
    (same : SameGraph graph.keys other.keys (edgesOf graph) (edgesOf other)) :
    SameGraph (visitEdges edges (entries.map graph)).keys
      (visitEdges otherEdges (otherEntries.map other)).keys
      (edgesOf (visitEdges edges (entries.map graph)))
      (edgesOf (visitEdges otherEdges (otherEntries.map other))) := by
  refine ⟨fun id => ?_, fun id member next => ?_⟩
  · rw [mem_keys_visited, mem_keys_visited]
    exact same.known id
  · rw [mem_edgesOf_visited, mem_edgesOf_visited]
    exact same.target id (mem_keys_visited.mp member) next

/-- No event cites two events with the same type and state key. -/
def CitesOnce (store : EventStore) : Prop :=
  ∀ id event, store.fetch id = some event →
    ∀ left ∈ event.authEvents, ∀ right ∈ event.authEvents,
    ∀ leftEvent rightEvent, store.fetch left = some leftEvent →
      store.fetch right = some rightEvent →
      leftEvent.kind = rightEvent.kind →
      leftEvent.stateKey = rightEvent.stateKey → left = right

theorem getPowerLevelForSender_eq {ruma : Ruma} (once : CitesOnce store)
    (completes other : Completion) (id : EventId) :
    getPowerLevelForSender ruma store completes id =
      getPowerLevelForSender ruma store other id := by
  unfold getPowerLevelForSender
  simp only
  cases fetched : store.fetch id with
  | none => rfl
  | some event =>
      have perm : ((completes.bufferUnordered event.authEvents).filterMap
          store.fetch).Perm ((other.bufferUnordered
            event.authEvents).filterMap store.fetch) :=
        ((completes.bufferUnordered_perm _).trans
          (other.bufferUnordered_perm _).symm).filterMap _
      simp only [map_some, getD_some]
      rw [find?_eq_of_perm perm]
      intro left leftListed right rightListed leftPower rightPower
      obtain ⟨leftId, leftCited, leftFetched⟩ := mem_filterMap.mp leftListed
      obtain ⟨rightId, rightCited, rightFetched⟩ := mem_filterMap.mp rightListed
      simp only [isTypeAndKey, decide_eq_true_eq] at leftPower rightPower
      have same := once id event fetched
        leftId (Completion.mem_bufferUnordered.mp leftCited)
        rightId (Completion.mem_bufferUnordered.mp rightCited)
        left right leftFetched rightFetched
        (leftPower.1.trans rightPower.1.symm)
        (leftPower.2.trans rightPower.2.symm)
      rw [same, rightFetched] at leftFetched
      exact (some.inj leftFetched).symm

theorem reverseTopologicalPowerSort_agree {ruma : Ruma} {weight : EventId → Nat}
    (once : CitesOnce store)
    (weighs : Weighs (fun id => (store.authEventsOf id).getD []) weight)
    {orders otherOrders : SortOrders} {rounds otherRounds : Nat}
    {eventsToSort otherToSort otherDiff : List EventId}
    (sameSort : ∀ id, id ∈ eventsToSort ↔ id ∈ otherToSort)
    (sameDiff : ∀ id, id ∈ authDiff ↔ id ∈ otherDiff)
    (enough : ∀ id ∈ eventsToSort, weight id < rounds)
    (otherEnough : ∀ id ∈ otherToSort, weight id < otherRounds) :
    Agree Stop.Final
      (reverseTopologicalPowerSort ruma store orders rounds eventsToSort
        authDiff)
      (reverseTopologicalPowerSort ruma store otherOrders otherRounds
        otherToSort otherDiff) := by
  obtain ⟨graph, built⟩ := powerGraph_finishes weighs eventsToSort ∅ enough
  obtain ⟨other, otherBuilt⟩ :=
    powerGraph_finishes weighs otherToSort ∅ otherEnough
  have same := (powerGraph_spec built).sameGraph sameDiff sameSort
    (powerGraph_spec otherBuilt)
  unfold reverseTopologicalPowerSort
  rw [built, otherBuilt]
  refine bounded_agree (lexicographicalTopologicalSort_agree
    orders.references.perm otherOrders.references.perm
    (sameGraph_visited same) ?_)
  intro id visited
  have known := mem_keys_visited.mp visited
  unfold powerSortKey
  rw [lookup_eventToPl known, lookup_eventToPl ((same.known id).mp known),
    getPowerLevelForSender_eq once]

end ArcanaServer.StateRes
