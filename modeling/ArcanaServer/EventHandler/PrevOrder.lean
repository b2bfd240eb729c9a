import ArcanaServer.EventHandler.OutlierIds
import ArcanaServer.StateRes.TopologicalSortSpec

namespace ArcanaServer.EventHandler

open Library ArcanaServer.Matrix StateRes Function List Option

/-- Each event is listed once, no event with known contents is left out, and
each one follows the events with known contents among its previous events. -/
structure YieldsOrder (sorted : List EventId)
    (eventidInfo : EventId → Option EventInfo) : Prop where
  once : sorted.Nodup
  complete : ∀ eventId info, eventidInfo eventId = some info → eventId ∈ sorted
  ordered : ∀ before eventId after, sorted = before ++ eventId :: after →
    ∀ pdu json, eventidInfo eventId = some (pdu, json) →
      ∀ prev ∈ pdu.prevEvents, (eventidInfo prev).isSome → prev ∈ before

/-- One round of the loop: the event that is looked at, what is found and the
count of the events before. -/
structure Visit where
  eventId : EventId
  answer : Answer
  amount : Nat

namespace Visit

def informs (bounds : PrevBounds) (visit : Visit) : Option EventInfo :=
  match visit.answer with
  | some (pdu, some json) =>
      if visit.amount > bounds.maxFetchPrevEvents then none
      else some (pdu, json)
  | _ => none

def edges (bounds : PrevBounds) (visit : Visit) : List EventId :=
  match visit.informs bounds with
  | some (pdu, _) =>
      if pdu.originServerTs > bounds.firstTsInRoom then pdu.prevEvents.dedup
      else []
  | none => []

end Visit

section

variable (bounds : PrevBounds)

def recorded (visits : List Visit) : EventId → List EventId := visits.foldl
    (fun table visit =>
      Function.update table visit.eventId (visit.edges bounds))
    (fun _ => [])

def informed (visits : List Visit) : EventId → Option EventInfo := visits.foldl
    (fun table visit =>
      match visit.informs bounds with
      | some info => Function.update table visit.eventId (some info)
      | none => table)
    (fun _ => none)

/-- Nothing that is known lists itself, however far back, among what was
recorded, and an event of which no previous events were recorded is younger
than its previous events and all that these rest on. -/
structure Sortable (visits : List Visit) : Prop where
  rooted : ∀ eventId info, informed bounds visits eventId = some info →
    Acc (fun prev eventId => prev ∈ recorded bounds visits eventId) eventId
  younger : ∀ eventId pdu json,
    informed bounds visits eventId = some (pdu, json) →
    recorded bounds visits eventId = [] →
    ∀ prev ∈ pdu.prevEvents, (informed bounds visits prev).isSome →
      ∀ reached, RestsOn (recorded bounds visits) prev reached →
        toLex (stampIn (informed bounds visits) reached, reached) <
          toLex (stampIn (informed bounds visits) eventId, eventId)

inductive Visits (lookFor : EventId → Walking Answer) :
    PrevWalk → World → List Visit → PrevWalk → World → Prop
  | done {walk : PrevWalk} {world : World}
      (empty : walk.todoOutlierStack = []) :
      Visits lookFor walk world [] walk world
  | next {walk final : PrevWalk} {world middle after : World}
      {eventId : EventId} {todoOutlierStack : List EventId} {answer : Answer}
      {visits : List Visit}
      (first : walk.todoOutlierStack = eventId :: todoOutlierStack)
      (looked : lookFor eventId world = .ok answer middle)
      (rest : Visits lookFor
        ({ walk with todoOutlierStack }.visit bounds eventId answer) middle
        visits final after) :
      Visits lookFor walk world
        ({ eventId, answer, amount := walk.amount } :: visits) final after

variable {bounds} {lookFor : EventId → Walking Answer}

variable {visits : List Visit}

theorem Visits.unique {walk final final' : PrevWalk}
    {world after after' : World} {visits' : List Visit}
    (left : Visits bounds lookFor walk world visits final after)
    (right : Visits bounds lookFor walk world visits' final' after') :
    visits = visits' ∧ final = final' := by
  induction left generalizing visits' with
  | done empty =>
      cases right with
      | done => exact ⟨rfl, rfl⟩
      | next first _ _ =>
          rw [empty] at first
          cases first
  | next first looked _ ih =>
      cases right with
      | done empty =>
          rw [empty] at first
          cases first
      | next first' looked' rest =>
          rw [first] at first'
          cases first'
          rw [looked] at looked'
          cases looked'
          obtain ⟨same, sameFinal⟩ := ih rest
          rw [same]
          exact ⟨rfl, sameFinal⟩

theorem walkPrev_ok (rounds : Nat) :
    ∀ {walk final : PrevWalk} {world after : World},
      walkPrev lookFor bounds rounds walk world = .ok final after →
      ∃ visits, Visits bounds lookFor walk world visits final after := by
  induction rounds with
  | zero =>
      intro walk final world after walked
      cases walked
  | succ rounds ih =>
      intro walk final world after walked
      cases first : walk.todoOutlierStack with
      | nil =>
          simp only [walkPrev, first] at walked
          cases walked
          exact ⟨[], .done first⟩
      | cons eventId todo =>
          simp only [walkPrev, first] at walked
          obtain ⟨answer, middle, looked, rest⟩ := bind_ok walked
          obtain ⟨visits, later⟩ := ih rest
          exact ⟨_, .next first looked later⟩

theorem visit_progress (small : bounds.maxFetchPrevEvents < u16Max)
    (walk : PrevWalk) (eventId : EventId) (answer : Answer) :
    ((walk.visit bounds eventId answer).todoOutlierStack =
        walk.todoOutlierStack ∧
      (walk.visit bounds eventId answer).amount = walk.amount) ∨
    (walk.amount ≤ bounds.maxFetchPrevEvents ∧
      (walk.visit bounds eventId answer).amount = walk.amount + 1) := by
  cases answer with
  | none => exact .inl ⟨rfl, rfl⟩
  | some found =>
      obtain ⟨pdu, jsonOpt⟩ := found
      unfold PrevWalk.visit
      dsimp only
      split
      · exact .inl ⟨rfl, rfl⟩
      next room =>
        cases jsonOpt with
        | none => exact .inl ⟨rfl, rfl⟩
        | some json =>
            dsimp only
            split
            · right
              simp only [PrevWalk.extend]
              omega
            · exact .inl ⟨rfl, rfl⟩

theorem walkPrev_ends (small : bounds.maxFetchPrevEvents < u16Max)
    (looks : ∀ eventId world, ∃ answer middle,
      lookFor eventId world = .ok answer middle) :
    ∀ (walk : PrevWalk) (world : World), ∃ rounds final after,
      walkPrev lookFor bounds rounds walk world = .ok final after := by
  -- Each counted event uses up the limit, and every other one the queue.
  suffices ends : ∀ (room queued : Nat) (walk : PrevWalk) (world : World),
      bounds.maxFetchPrevEvents + 1 - walk.amount = room →
      walk.todoOutlierStack.length = queued →
      ∃ rounds final after,
        walkPrev lookFor bounds rounds walk world = .ok final after by
    intro walk world
    exact ends _ _ walk world rfl rfl
  intro room
  induction room using Nat.strong_induction_on with
  | _ room counts =>
      intro queued
      induction queued with
      | zero =>
          intro walk world _ empty
          refine ⟨1, walk, world, ?_⟩
          simp only [walkPrev, length_eq_zero_iff.mp empty]
          rfl
      | succ queued queues =>
          intro walk world isRoom isQueued
          obtain ⟨eventId, todoOutlierStack, first⟩ :=
            exists_cons_of_length_eq_add_one isQueued
          obtain ⟨answer, middle, looked⟩ := looks eventId world
          have later : ∃ rounds final after, walkPrev lookFor bounds rounds
                ({ walk with todoOutlierStack }.visit bounds eventId answer)
                middle = .ok final after := by
            cases visit_progress small { walk with todoOutlierStack } eventId
                answer with
            | inl waits =>
                apply queues
                · rw [waits.2]
                  exact isRoom
                · rw [waits.1]
                  rw [first] at isQueued
                  exact Nat.succ.inj isQueued
            | inr counted =>
                obtain ⟨under, more⟩ := counted
                refine counts _ ?_ _ _ _ rfl rfl
                rw [more, ← isRoom]
                dsimp only at under ⊢
                omega
          obtain ⟨rounds, final, after, walked⟩ := later
          refine ⟨rounds + 1, final, after, ?_⟩
          simp only [walkPrev, first]
          rw [bind_of_ok _ looked]
          exact walked

/-- Every event that is asked for names itself and one that was never asked for
as its previous events. -/
def endlessPdus (eventId : EventId) : Walking Answer :=
  pure (some ({ createPdu with
    eventId
    originServerTs := 6
    prevEvents := [eventId, eventId ++ "s"] }, some createFields))

theorem walkPrev_ends_endless : ∃ rounds final after,
    walkPrev endlessPdus ⟨192, 0⟩ rounds (.start ["$late", "$later"]) .empty =
      .ok final after :=
  walkPrev_ends (by decide) (fun _ world => ⟨_, world, rfl⟩) _ _

theorem recorded_snoc (visits : List Visit) (visit : Visit) :
    recorded bounds (visits ++ [visit]) =
      update (recorded bounds visits) visit.eventId (visit.edges bounds) := by
  simp only [recorded, foldl_append, foldl_cons, foldl_nil]

theorem informed_snoc (visits : List Visit) (visit : Visit) :
    informed bounds (visits ++ [visit]) =
      match visit.informs bounds with
      | some info =>
          update (informed bounds visits) visit.eventId (some info)
      | none => informed bounds visits := by
  simp only [informed, foldl_append, foldl_cons, foldl_nil]

variable {visit : Visit}

theorem informed_snoc_of_ne {other : EventId}
    (different : other ≠ visit.eventId) :
    informed bounds (visits ++ [visit]) other =
      informed bounds visits other := by
  rw [informed_snoc]
  cases visit.informs bounds with
  | none => rfl
  | some info => exact update_of_ne different _ _

theorem informed_snoc_cases {other : EventId} {info : EventInfo}
    (known : informed bounds (visits ++ [visit]) other = some info) :
    informed bounds visits other = some info ∨
      other = visit.eventId ∧ visit.informs bounds = some info := by
  rw [informed_snoc] at known
  cases informs : visit.informs bounds with
  | none =>
      rw [informs] at known
      exact .inl known
  | some fresh =>
      rw [informs] at known
      exact (update_eq_some known).imp_right fun new =>
        ⟨new.1, congrArg some new.2.symm⟩

/-- What a round does, in the terms of its visit. -/
structure Visited (bounds : PrevBounds) (walk : PrevWalk) (visit : Visit)
    (after : PrevWalk) : Prop where
  graph : after.graph = walk.graph.insert visit.eventId (visit.edges bounds)
  info : after.eventidInfo = match visit.informs bounds with
    | some info => Function.update walk.eventidInfo visit.eventId (some info)
    | none => walk.eventidInfo
  kept : ∀ eventId ∈ walk.todoOutlierStack, eventId ∈ after.todoOutlierStack
  queued : ∀ prev ∈ visit.edges bounds,
    prev ∈ walk.graph ∨ prev ∈ after.todoOutlierStack

theorem visited_prune (walk : PrevWalk) (silent : visit.informs bounds = none) :
    Visited bounds walk visit (walk.prune visit.eventId) := by
  have none : visit.edges bounds = [] := by
    simp only [Visit.edges, silent]
  refine ⟨?_, ?_, fun _ member => member, ?_⟩
  · rw [none]
    rfl
  · rw [silent]
    rfl
  · intro prev edge
    rw [none] at edge
    cases edge

variable {json : CanonicalJsonObject}

theorem visited_informs (walk : PrevWalk) (eventId : EventId) {pdu : Pdu}
    (room : ¬walk.amount > bounds.maxFetchPrevEvents) :
    Visited bounds walk
      { eventId, answer := some (pdu, some json), amount := walk.amount }
      (walk.visit bounds eventId (some (pdu, some json))) := by
  rcases Decidable.em (pdu.originServerTs > bounds.firstTsInRoom) with
    recent | old
  · simp only [PrevWalk.visit, if_neg room, if_pos recent, PrevWalk.extend]
    refine ⟨?_, ?_, ?_, ?_⟩
    · simp only [Visit.edges, Visit.informs, if_neg room, if_pos recent]
    · simp only [Visit.informs, if_neg room]
    · intro other member
      exact mem_append_left _ member
    · intro prev edge
      simp only [Visit.edges, Visit.informs, if_neg room, if_pos recent,
        mem_dedup] at edge
      rcases Decidable.em (prev ∈ walk.graph) with known | fresh
      · exact .inl known
      · right
        apply mem_append_right
        exact mem_filter.mpr ⟨edge, by simpa using fresh⟩
  · simp only [PrevWalk.visit, if_neg room, if_neg old, PrevWalk.prune]
    refine ⟨?_, ?_, ?_, ?_⟩
    · simp only [Visit.edges, Visit.informs, if_neg room, if_neg old]
    · simp only [Visit.informs, if_neg room]
    · intro other member
      exact member
    · intro prev edge
      simp only [Visit.edges, Visit.informs, if_neg room, if_neg old,
        not_mem_nil] at edge

theorem visit_spec (bounds : PrevBounds) (walk : PrevWalk) (eventId : EventId)
    (answer : Answer) :
    Visited bounds walk { eventId, answer, amount := walk.amount }
      (walk.visit bounds eventId answer) := by
  cases answer with
  | none => exact visited_prune walk rfl
  | some found =>
      obtain ⟨pdu, jsonOpt⟩ := found
      rcases Decidable.em (walk.amount > bounds.maxFetchPrevEvents) with
        enough | room
      · simp only [PrevWalk.visit, if_pos enough]
        apply visited_prune walk
        cases jsonOpt with
        | none => rfl
        | some json => exact if_pos enough
      · cases jsonOpt with
        | none =>
            simp only [PrevWalk.visit, if_neg room]
            exact visited_prune walk rfl
        | some json => exact visited_informs walk eventId room

structure Follows (bounds : PrevBounds) (seen : List Visit)
    (walk : PrevWalk) : Prop where
  edges : edgesOf walk.graph = recorded bounds seen
  info : walk.eventidInfo = informed bounds seen
  known : ∀ eventId info, informed bounds seen eventId = some info →
    eventId ∈ walk.graph.keys
  listed : ∀ eventId pdu json, informed bounds seen eventId = some (pdu, json) →
      recorded bounds seen eventId = [] ∨
        recorded bounds seen eventId = pdu.prevEvents.dedup
  closed : ∀ eventId ∈ walk.graph.keys, ∀ prev ∈ recorded bounds seen eventId,
      prev ∈ walk.graph.keys ∨ prev ∈ walk.todoOutlierStack

theorem edgesOf_insert (graph : Graph EventId) (eventId : EventId)
    (edges : List EventId) :
    edgesOf (graph.insert eventId edges) =
      update (edgesOf graph) eventId edges := by
  funext other
  rcases Decidable.em (other = eventId) with same | different
  · rw [same, update_self, edgesOf, AList.lookup_insert]
    rfl
  · rw [update_of_ne different, edgesOf, AList.lookup_insert_ne different]
    rfl

theorem informs_edges (visit : Visit) {pdu : Pdu}
    (informs : visit.informs bounds = some (pdu, json)) :
    visit.edges bounds = [] ∨ visit.edges bounds = pdu.prevEvents.dedup := by
  simp only [Visit.edges, informs]
  split
  · exact .inr rfl
  · exact .inl rfl

theorem edges_of_informed {pdu : Pdu}
    (known : informed bounds (visits ++ [visit]) visit.eventId =
      some (pdu, json)) :
    visit.edges bounds = [] ∨ visit.edges bounds = pdu.prevEvents.dedup := by
  cases informs : visit.informs bounds with
  | none =>
      left
      simp only [Visit.edges, informs]
  | some fresh =>
      rw [informed_snoc, informs] at known
      simp only [update_self, some.injEq] at known
      rw [known] at informs
      exact informs_edges visit informs

theorem Follows.next {seen : List Visit} {walk after : PrevWalk}
    {todoOutlierStack : List EventId} (follows : Follows bounds seen walk)
    (first : walk.todoOutlierStack = visit.eventId :: todoOutlierStack)
    (visited : Visited bounds { walk with todoOutlierStack } visit after) :
    Follows bounds (seen ++ [visit]) after := by
  have keys : ∀ other, other ∈ after.graph.keys ↔
      other = visit.eventId ∨ other ∈ walk.graph.keys := by
    intro other
    rw [visited.graph]
    exact mem_keys_insert
  refine ⟨?_, ?_, ?_, ?_, ?_⟩
  · rw [visited.graph, edgesOf_insert, follows.edges, recorded_snoc]
  · rw [visited.info, informed_snoc, ← follows.info]
  · intro other info known
    rw [keys]
    rcases informed_snoc_cases known with old | new
    · exact .inr (follows.known other info old)
    · exact .inl new.1
  · intro other pdu json known
    rw [recorded_snoc]
    rcases Decidable.em (other = visit.eventId) with same | different
    · rw [same, update_self]
      rw [same] at known
      exact edges_of_informed known
    · rw [update_of_ne different]
      rw [informed_snoc_of_ne different] at known
      exact follows.listed other pdu json known
  · intro other inside prev edge
    rw [recorded_snoc] at edge
    rw [keys] at inside ⊢
    rcases Decidable.em (other = visit.eventId) with same | different
    · rw [same, update_self] at edge
      rcases visited.queued prev edge with known | queued
      · exact .inl (.inr known)
      · exact .inr queued
    · rw [update_of_ne different] at edge
      have known := inside.resolve_left different
      rcases follows.closed other known prev edge with old | queued
      · exact .inl (.inr old)
      · rw [first] at queued
        rcases mem_cons.mp queued with looked | later
        · exact .inl (.inl looked)
        · exact .inr (visited.kept prev later)

theorem follows_start (initialSet : List EventId) :
    Follows bounds [] (PrevWalk.start initialSet) := by
  refine ⟨rfl, rfl, ?_, ?_, ?_⟩
  · intro eventId info known
    cases known
  · intro eventId pdu json known
    cases known
  · intro eventId _ prev edge
    cases edge

theorem Visits.follows {walk final : PrevWalk} {world after : World}
    (visited : Visits bounds lookFor walk world visits final after) :
    ∀ {seen : List Visit}, Follows bounds seen walk →
      Follows bounds (seen ++ visits) final ∧ final.todoOutlierStack = [] := by
  induction visited with
  | done empty =>
      intro seen follows
      rw [append_nil]
      exact ⟨follows, empty⟩
  | next first _ _ ih =>
      intro seen follows
      have later := ih (follows.next first (visit_spec bounds _ _ _))
      rw [append_assoc] at later
      exact later

theorem sortLe_eventFetch (eventidInfo : EventId → Option EventInfo)
    (left right : EventId) :
    SortLe (eventFetch eventidInfo) left right ↔
      toLex (stampIn eventidInfo left, left) ≤
        toLex (stampIn eventidInfo right, right) := by
  simp only [SortLe, sortKey, eventFetch, TieBreaker.key, Prod.Lex.toLex_le_toLex,
    lt_self_iff_false, true_and, false_or]

/-- The events of the graph come in the greedy order, whatever the order in
which the hash maps are visited. -/
theorem sortWalk_spec (order : HashOrder) (walk : PrevWalk) :
    ∃ sorted, sortWalk order walk = .ok sorted ∧
      Greedy (SortLe (eventFetch walk.eventidInfo)) (order.map walk.graph).keys
        (edgesOf walk.graph) sorted ∧
      ∀ eventId, eventId ∈ sorted ↔
        Grounded (order.map walk.graph).keys (edgesOf walk.graph) eventId := by
  have sortSettles := lexicographicalTopologicalSort_settles
    (order.map walk.graph) (eventFetch walk.eventidInfo)
    (fun list => order.perm list)
  have sameEdges : edgesOf (order.map walk.graph) = edgesOf walk.graph := by
    funext eventId
    rw [edgesOf, order.lookup_map, edgesOf]
  rw [sameEdges] at sortSettles
  obtain ⟨sorted, result, greedy, exhausted, _⟩ :=
    sortSettles.exists_ok (by
      intro failure failed
      obtain ⟨node, _, impossible⟩ := failed
      cases impossible)
  exact ⟨sorted, result, greedy, greedy.mem_iff_grounded exhausted⟩

section

variable {seen : List Visit} {walk : PrevWalk} {order : HashOrder}
  {sorted : List EventId}

theorem Follows.grounded_iff (follows : Follows bounds seen walk)
    (ended : walk.todoOutlierStack = []) (order : HashOrder)
    {eventId : EventId} {info : EventInfo}
    (known : informed bounds seen eventId = some info) :
    Grounded (order.map walk.graph).keys (recorded bounds seen) eventId ↔
      Acc (fun prev eventId => prev ∈ recorded bounds seen eventId)
        eventId := by
  have keys : ∀ other, other ∈ (order.map walk.graph).keys ↔
      other ∈ walk.graph.keys :=
    fun other => (order.keys_map_perm walk.graph).mem_iff
  rw [Grounded.iff_acc]
  · rw [keys]
    exact and_iff_right (follows.known eventId info known)
  · intro other inside prev edge
    rw [keys] at inside ⊢
    rcases follows.closed other inside prev edge with closed | queued
    · exact closed
    · rw [ended] at queued
      cases queued

theorem Follows.yieldsOrder_iff (follows : Follows bounds seen walk)
    (ended : walk.todoOutlierStack = [])
    (result : sortWalk order walk = .ok sorted) :
    YieldsOrder sorted walk.eventidInfo ↔ Sortable bounds seen := by
  obtain ⟨sorted', result', greedy, members⟩ := sortWalk_spec order walk
  rw [result] at result'
  cases result'
  rw [follows.edges] at greedy members
  have before := fun {first last : List EventId} {eventId : EventId}
      (split : sorted = first ++ eventId :: last)
      (free : recorded bounds seen eventId = []) =>
    greedy.mem_before_iff (SortLe.antisymm _) split free
  simp only [sortLe_eventFetch, not_le, follows.info] at before
  rw [follows.info]
  constructor
  · intro yields
    have grounded : ∀ eventId info, informed bounds seen eventId = some info →
          Grounded (order.map walk.graph).keys (recorded bounds seen)
            eventId :=
      fun eventId info known =>
        (members eventId).mp (yields.complete eventId info known)
    constructor
    · intro eventId info known
      exact (follows.grounded_iff ended order known).mp
        (grounded eventId info known)
    · intro eventId pdu json known free prev listed prevKnown reached rests
      obtain ⟨first, last, split⟩ :=
        append_of_mem (yields.complete eventId _ known)
      have earlier := yields.ordered first eventId last split pdu json known
        prev listed prevKnown
      exact ((before split free prev).mp earlier).2 reached rests
  · intro sortable
    have grounded : ∀ eventId info, informed bounds seen eventId = some info →
          Grounded (order.map walk.graph).keys (recorded bounds seen)
            eventId :=
      fun eventId info known =>
        (follows.grounded_iff ended order known).mpr
          (sortable.rooted eventId info known)
    refine ⟨greedy.nodup, ?_, ?_⟩
    · intro eventId info known
      exact (members eventId).mpr (grounded eventId info known)
    · intro first eventId last split pdu json known prev listed prevKnown
      obtain ⟨info, isKnown⟩ := isSome_iff_exists.mp prevKnown
      rcases follows.listed eventId pdu json known with free | edges
      · exact (before split free prev).mpr ⟨grounded prev info isKnown,
          sortable.younger eventId pdu json known free prev listed prevKnown⟩
      · apply greedy.topological first eventId last split prev
        rw [edges]
        exact mem_dedup.mpr listed

end

end

namespace Surroundings

variable {surroundings : Surroundings} {running : Nat → Bool}
  {order : HashOrder} {bounds : PrevBounds} {origin : ServerName}
  {createEvent : Pdu} {roomId : RoomId} {rounds : Nat}
  {initialSet : List EventId} {world after : World}

def SortablePrevs (surroundings : Surroundings) (running : Nat → Bool)
    (bounds : PrevBounds) (origin : ServerName) (createEvent : Pdu)
    (roomId : RoomId) (rounds : Nat) (initialSet : List EventId)
    (world : World) : Prop :=
  ∃ visits final after, Visits bounds
      (surroundings.lookForPrev running origin createEvent roomId rounds)
      (PrevWalk.start initialSet) world visits final after ∧
    Sortable bounds visits

/-- Whatever the other servers answer, and whatever the limit: the list is in
the order of the events if and only if the answers can be sorted. -/
theorem fetchPrev_yieldsOrder_iff {sorted : List EventId}
    {eventidInfo : EventId → Option EventInfo}
    (returned : surroundings.fetchPrev running order bounds origin createEvent
      roomId rounds initialSet world = .ok (sorted, eventidInfo) after) :
    YieldsOrder sorted eventidInfo ↔
      surroundings.SortablePrevs running bounds origin createEvent roomId
        rounds initialSet world := by
  obtain ⟨walk, middle, walked, rest⟩ := bind_ok returned
  obtain ⟨sorted', middle', lifted, ends⟩ := bind_ok rest
  cases ends
  obtain ⟨isSorted, _⟩ := liftExcept_ok lifted
  have result : sortWalk order walk = .ok sorted := by
    cases sortResult : sortWalk order walk with
    | error failure =>
        rw [sortResult] at isSorted
        cases isSorted
    | ok found =>
        rw [sortResult] at isSorted
        cases isSorted
        rfl
  obtain ⟨visits, visited⟩ := walkPrev_ok rounds walked
  obtain ⟨follows, ended⟩ := visited.follows (follows_start initialSet)
  rw [nil_append] at follows
  rw [follows.yieldsOrder_iff ended result]
  constructor
  · intro sortable
    exact ⟨visits, walk, middle, visited, sortable⟩
  · intro orderly
    obtain ⟨visits', final, after, visited', sortable⟩ := orderly
    obtain ⟨same, _⟩ := visited.unique visited'
    rw [same]
    exact sortable

end Surroundings

namespace OldEvents

def joinFields (stamp : Int) (authEvents prevEvents : List EventId) :
    CanonicalJsonObject :=
  [("auth_events", .arr (authEvents.map .str)),
    ("content", .obj [("membership", .str "join")]),
    ("depth", .int 2),
    ("hashes", .obj [("sha256", .str "")]),
    ("origin_server_ts", .int stamp),
    ("prev_events", .arr (prevEvents.map .str)),
    ("room_id", .str "!room:a"),
    ("sender", .str "@alice:a"),
    ("state_key", .str "@alice:a"),
    ("type", .str "m.room.member")]

def server (joined rejoined : Int) : Surroundings :=
  plainSurroundings (fun eventId =>
    if eventId = "$rejoin" then
      some (.obj (joinFields rejoined [createId, "$join"] ["$join"]))
    else if eventId = "$join" then
      some (.obj (joinFields joined [createId] [createId]))
    else none)

def createWorld : World :=
  { World.empty with
    timeline := Function.update (fun _ => none) createId
      (some (insertField "event_id" (.str createId) createFields)) }

def lookFor (joined rejoined : Int) : EventId → Walking Answer :=
  (server joined rejoined).lookForPrev (fun _ => true) "b" createPdu "!room:a"
    8

def bounds : PrevBounds where
  maxFetchPrevEvents := 192
  firstTsInRoom := 5

def fetched (joined rejoined : Int) : EStateM.Result PrevError World
      (List EventId × (EventId → Option EventInfo)) :=
  (server joined rejoined).fetchPrev (fun _ => true) .inserted bounds "b"
    createPdu "!room:a" 8 ["$rejoin", "$join"] createWorld

def shown : EStateM.Result PrevError World
      (List EventId × (EventId → Option EventInfo)) →
    Option (List EventId × List (Option (List EventId)))
  | .ok (sorted, eventidInfo) _ =>
      some (sorted, ["$rejoin", "$join"].map fun eventId =>
        (eventidInfo eventId).map fun info => info.1.prevEvents)
  | .error _ _ => none

theorem skewed_shown : shown (fetched 2 1) =
    some (["$rejoin", "$join"], [some ["$join"], some [createId]]) := by
  decide

def answered (joined rejoined : Int) : Option (Answer × Answer) :=
  match lookFor joined rejoined "$rejoin" createWorld with
  | .ok first middle =>
      match lookFor joined rejoined "$join" middle with
      | .ok second _ => some (first, second)
      | .error _ _ => none
  | .error _ _ => none

def contents (answer : Answer) : Option (Nat × List EventId × Bool) :=
  answer.map fun found =>
    (found.1.originServerTs, found.1.prevEvents, found.2.isSome)

theorem honest_answered :
    (answered 1 2).map (fun both => (contents both.1, contents both.2)) =
      some (some (2, ["$join"], true), some (1, [createId], true)) :=
  rfl

theorem honest_shown : (shown (fetched 1 2)).isSome = true := by
  decide

theorem contents_eq_some {answer : Answer} {stamp : Nat}
    {prevEvents : List EventId}
    (shows : contents answer = some (stamp, prevEvents, true)) :
    ∃ pdu json, answer = some (pdu, some json) ∧
      pdu.originServerTs = stamp ∧ pdu.prevEvents = prevEvents := by
  cases answer with
  | none => cases shows
  | some found =>
      obtain ⟨pdu, jsonOpt⟩ := found
      cases jsonOpt with
      | none => cases shows
      | some json =>
          cases shows
          exact ⟨pdu, json, rfl, rfl, rfl⟩

section

variable {walk : PrevWalk} {eventId : EventId} {pdu : Pdu}
  {json : CanonicalJsonObject}

theorem visit_old (room : walk.amount ≤ 192) (old : pdu.originServerTs ≤ 5) :
    walk.visit bounds eventId (some (pdu, some json)) =
      { walk.prune eventId with
        eventidInfo :=
          update walk.eventidInfo eventId (some (pdu, json)) } := by
  have under : ¬ walk.amount > bounds.maxFetchPrevEvents := Nat.not_lt.mpr room
  have early : ¬ pdu.originServerTs > bounds.firstTsInRoom := Nat.not_lt.mpr old
  simp only [PrevWalk.visit, if_neg under, if_neg early, PrevWalk.prune]

theorem informs_old : Visit.informs bounds ⟨eventId, some (pdu, some json), 0⟩ =
      some (pdu, json) :=
  rfl

theorem edges_old (old : pdu.originServerTs ≤ 5) :
    Visit.edges bounds ⟨eventId, some (pdu, some json), 0⟩ = [] := by
  have early : ¬ pdu.originServerTs > bounds.firstTsInRoom := Nat.not_lt.mpr old
  simp only [Visit.edges, informs_old, if_neg early]

end

/-- Events that are too old come in the order of their times. -/
theorem sortable_old {rejoin join : Pdu} {json json' : CanonicalJsonObject}
    (rejoinOld : rejoin.originServerTs ≤ 5)
    (prevs : rejoin.prevEvents = ["$join"])
    (joinOld : join.originServerTs < rejoin.originServerTs)
    (joinPrevs : join.prevEvents = [createId]) :
    Sortable bounds [⟨"$rejoin", some (rejoin, some json), 0⟩,
      ⟨"$join", some (join, some json'), 0⟩] := by
  have nothing : recorded bounds [⟨"$rejoin", some (rejoin, some json), 0⟩,
      ⟨"$join", some (join, some json'), 0⟩] = fun _ => [] := by
    simp only [recorded, foldl_cons, foldl_nil,
      edges_old rejoinOld, edges_old (joinOld.le.trans rejoinOld)]
    funext eventId
    simp [update]
  have known : informed bounds [⟨"$rejoin", some (rejoin, some json), 0⟩,
      ⟨"$join", some (join, some json'), 0⟩] =
        update (update (fun _ => none) "$rejoin"
          (some (rejoin, json))) "$join" (some (join, json')) := rfl
  constructor
  · intro eventId info _
    rw [nothing]
    refine .intro _ ?_
    intro prev edge
    cases edge
  · intro eventId pdu contents isKnown _ prev listed prevKnown reached rests
    rw [nothing] at rests
    have same : reached = prev := by
      cases rests with
      | refl => rfl
      | tail _ edge => cases edge
    rw [known] at isKnown prevKnown ⊢
    rcases update_eq_some isKnown with isRejoin | isJoin
    · rcases update_eq_some isRejoin with never | isRejoin
      · cases never
      · cases isRejoin.2
        rw [prevs, mem_singleton] at listed
        rw [same, listed, isRejoin.1]
        exact Prod.Lex.toLex_lt_toLex.mpr (.inl joinOld)
    · cases isJoin.2
      rw [joinPrevs, mem_singleton] at listed
      rw [listed] at prevKnown
      cases prevKnown

theorem honest_sortable :
    (server 1 2).SortablePrevs (fun _ => true) bounds "b" createPdu "!room:a" 8
      ["$rejoin", "$join"] createWorld := by
  have shows := honest_answered
  unfold answered at shows
  cases first : lookFor 1 2 "$rejoin" createWorld with
  | error error middle =>
      rw [first] at shows
      cases shows
  | ok answer middle =>
      cases second : lookFor 1 2 "$join" middle with
      | error error last =>
          simp only [first, second] at shows
          cases shows
      | ok answer' last =>
          simp only [first, second, map_some, some.injEq,
            Prod.mk.injEq] at shows
          obtain ⟨rejoin, json, rfl, stamp, prevs⟩ := contents_eq_some shows.1
          obtain ⟨join, json', rfl, stamp', prevs'⟩ := contents_eq_some shows.2
          have rejoinOld : rejoin.originServerTs ≤ 5 := by
            rw [stamp]
            decide
          have joinOld : join.originServerTs ≤ 5 := by
            rw [stamp']
            decide
          have visited : ∃ final, Visits bounds (lookFor 1 2)
              (PrevWalk.start ["$rejoin", "$join"]) createWorld
              [⟨"$rejoin", some (rejoin, some json), 0⟩,
                ⟨"$join", some (join, some json'), 0⟩] final last := by
            constructor
            apply Visits.next rfl first
            rw [visit_old (Nat.zero_le _) rejoinOld]
            apply Visits.next rfl second
            rw [visit_old (Nat.zero_le _) joinOld]
            exact .done rfl
          obtain ⟨final, visited⟩ := visited
          exact ⟨_, final, last, visited, sortable_old rejoinOld prevs
            (by rw [stamp, stamp']; decide) prevs'⟩

end OldEvents

theorem honestClocks_yieldsOrder : ∃ sorted eventidInfo after,
    OldEvents.fetched 1 2 = .ok (sorted, eventidInfo) after ∧
      YieldsOrder sorted eventidInfo := by
  have shows := OldEvents.honest_shown
  cases result : OldEvents.fetched 1 2 with
  | error error after =>
      rw [result] at shows
      cases shows
  | ok value after =>
      obtain ⟨sorted, eventidInfo⟩ := value
      exact ⟨sorted, eventidInfo, after, rfl,
        (Surroundings.fetchPrev_yieldsOrder_iff result).mpr
          OldEvents.honest_sortable⟩

/-- The events are as old as they say, but the clock of the server that sent the
later one was slow. -/
theorem skewedClocks_not_yieldsOrder : ∃ sorted eventidInfo after,
    OldEvents.fetched 2 1 = .ok (sorted, eventidInfo) after ∧
      ¬ YieldsOrder sorted eventidInfo := by
  have shows := OldEvents.skewed_shown
  cases result : OldEvents.fetched 2 1 with
  | error error after =>
      rw [result] at shows
      cases shows
  | ok value after =>
      obtain ⟨sorted, eventidInfo⟩ := value
      rw [result] at shows
      simp only [OldEvents.shown, map_cons, map_nil,
        some.injEq, Prod.mk.injEq, List.cons.injEq, and_true] at shows
      obtain ⟨isSorted, rejoin, join⟩ := shows
      refine ⟨sorted, eventidInfo, after, rfl, ?_⟩
      intro yields
      obtain ⟨info, known, prevs⟩ := map_eq_some_iff.mp rejoin
      obtain ⟨joinInfo, joinKnown, _⟩ := map_eq_some_iff.mp join
      have earlier := yields.ordered [] "$rejoin" ["$join"] isSorted info.1
        info.2 known "$join" (by simp [prevs]) (by simp [joinKnown])
      cases earlier

end ArcanaServer.EventHandler
