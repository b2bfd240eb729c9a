import ArcanaServer.StateRes.RoomChecks

namespace ArcanaServer.StateRes

open Library ArcanaServer.Matrix Relation List TopicRoom

/-! Two runs of a resolution whose inputs are the same as sets. -/

section

variable {ruma : Ruma} {store : EventStore} {roomVersion : RoomVersion}

variable {orders : CheckOrders}

theorem iterativeAuthCheck_eq_of_inOrder {otherOrders : CheckOrders}
    {ids : List EventId} {start : StateMap}
    (ordered : orders.fetches.InOrder ids.length)
    (otherOrdered : otherOrders.fetches.InOrder ids.length)
    (own : ∀ id ∈ ids, ∀ event, store.fetch id = some event →
      CitesOwnInvite ruma store event) (keyed : InvitesKeyed store start) :
    iterativeAuthCheck ruma store roomVersion orders ids start =
      iterativeAuthCheck ruma store roomVersion otherOrders ids start := by
  rw [iterativeAuthCheck_eq, iterativeAuthCheck_eq,
    ordered.bufferUnordered_eq, otherOrdered.bufferUnordered_eq]
  exact sequentialAuthCheck_eq own keyed _ _

theorem iterativeAuthCheck_entry {ids : List EventId} {start final : StateMap}
    (result : iterativeAuthCheck ruma store roomVersion orders ids start =
      .ok final) {key : TypeStateKey} {id : EventId}
    (entry : final key = some id) : start key = some id ∨ id ∈ ids := by
  rw [iterativeAuthCheck_eq] at result
  refine (sequentialAuthCheck_entry result entry).imp_right (fun accepted => ?_)
  exact Completion.mem_bufferUnordered.mp (Resolution.AcceptedBy.mem accepted)

theorem InvitesKeyed.iterativeAuthCheck {ids : List EventId}
    {start final : StateMap} (keyed : InvitesKeyed store start)
    (result : iterativeAuthCheck ruma store roomVersion orders ids start =
      .ok final) : InvitesKeyed store final := by
  rw [iterativeAuthCheck_eq] at result
  exact keyed.sequentialAuthCheck result

end

/-- Whichever of these events are checked, their fetches complete in the order
of the caller. -/
def KeepsOrder (fetches : Completion) (among : EventId → Prop) : Prop :=
  ∀ ids : List EventId, ids.Nodup → (∀ id ∈ ids, among id) →
    fetches.InOrder ids.length

section

variable {ruma : Ruma} {store : EventStore} {weight : EventId → Nat}

theorem resolveConflicted_agree (once : CitesOnce store)
    (weighs : Weighs (fun id => (store.authEventsOf id).getD []) weight)
    {orders otherOrders : ResolveOrders} {rounds otherRounds : Nat}
    {roomVersion : RoomVersionId} {conflicted otherConflicted : List EventId}
    {initialState : StateMap} (perm : conflicted.Perm otherConflicted)
    (enough : ∀ id ∈ conflicted, weight id < rounds ∧ weight id < otherRounds)
    (initialEnough : ∀ key id, initialState key = some id →
      weight id < rounds ∧ weight id < otherRounds)
    (own : ∀ id ∈ conflicted, ∀ event, store.fetch id = some event →
      CitesOwnInvite ruma store event)
    (keyed : InvitesKeyed store initialState)
    (control : KeepsOrder orders.controlCheck.fetches (· ∈ conflicted))
    (otherControl : KeepsOrder otherOrders.controlCheck.fetches
      (· ∈ conflicted))
    (left : KeepsOrder orders.leftCheck.fetches (· ∈ conflicted))
    (otherLeft : KeepsOrder otherOrders.leftCheck.fetches (· ∈ conflicted)) :
    Agree Stop.Final
      (resolveConflicted ruma store orders rounds roomVersion conflicted
        initialState)
      (resolveConflicted ruma store otherOrders otherRounds roomVersion
        otherConflicted initialState) := by
  have sameControl : ∀ id, id ∈ conflicted.filter (isPowerEventId ruma store) ↔
        id ∈ otherConflicted.filter (isPowerEventId ruma store) :=
    fun id => (perm.filter _).mem_iff
  refine .bind (reverseTopologicalPowerSort_agree once weighs sameControl
    (fun id => perm.mem_iff)
    (fun id member => (enough id (mem_of_mem_filter member)).1)
    (fun id member => (enough id
      (mem_of_mem_filter ((sameControl id).mpr member))).2)) ?_
  intro sortedControl sorting _
  have controlInside : ∀ id ∈ sortedControl, id ∈ conflicted :=
    reverseTopologicalPowerSort_mem
      (fun _ inside => mem_of_mem_filter inside) sorting
  have controlNodup := reverseTopologicalPowerSort_nodup sorting
  refine .bind (bounded_agree_self _) (fun version _ _ => ?_)
  rw [iterativeAuthCheck_eq_of_inOrder
    (control sortedControl controlNodup controlInside)
    (otherControl sortedControl controlNodup controlInside)
    (fun id member => own id (controlInside id member)) keyed]
  refine .bind (bounded_agree_self _) (fun resolvedControl checked _ => ?_)
  have checkedOk := bounded_eq_ok.mp checked
  have rest : ∀ id ∈ conflicted.filter
      (fun id => !sortedControl.contains id), id ∈ conflicted :=
    fun id member => mem_of_mem_filter member
  refine .bind (mainlineSort_agree weighs (perm.filter _)
    (fun id member => enough id (rest id member)) ?_) ?_
  · intro id level
    rcases iterativeAuthCheck_entry checkedOk level with initial | sorted
    · exact initialEnough _ id initial
    · exact enough id (controlInside id sorted)
  intro sortedLeft mainline _
  have leftInside : ∀ id ∈ sortedLeft, id ∈ conflicted :=
    fun id member => rest id (mainlineSort_mem mainline id member)
  have leftNodup := mainlineSort_nodup mainline
  rw [iterativeAuthCheck_eq_of_inOrder (left sortedLeft leftNodup leftInside)
    (otherLeft sortedLeft leftNodup leftInside)
    (fun id member => own id (leftInside id member))
    (keyed.iterativeAuthCheck checkedOk)]
  exact bounded_agree_self _

end

namespace Resolution

/-- The same inputs, with the state maps and the auth chains as sets and in any
order. -/
structure SameInputs (resolution other : Resolution) : Prop where
  ruma : resolution.ruma = other.ruma
  store : resolution.store = other.store
  eventExists : resolution.eventExists = other.eventExists
  roomVersion : resolution.roomVersion = other.roomVersion
  stateSets :
    (resolution.stateSets.map (fun stateSet key => stateSet.lookup key)).Perm
      (other.stateSets.map (fun stateSet key => stateSet.lookup key))
  authChainSets :
    (resolution.authChainSets.map (fun chain id => id ∈ chain.val)).Perm
      (other.authChainSets.map (fun chain id => id ∈ chain.val))

section

variable {resolution other : Resolution}

section

variable (same : resolution.SameInputs other)
include same

theorem SameInputs.symm : other.SameInputs resolution :=
  ⟨same.ruma.symm, same.store.symm, same.eventExists.symm,
    same.roomVersion.symm, same.stateSets.symm, same.authChainSets.symm⟩

theorem SameInputs.exists_stateSet {stateSet : StateSet EventId}
    (member : stateSet ∈ resolution.stateSets) :
    ∃ found ∈ other.stateSets,
      ∀ key, found.lookup key = stateSet.lookup key := by
  have listed := same.stateSets.mem_iff.mp (mem_map_of_mem member)
  obtain ⟨found, inside, equal⟩ := mem_map.mp listed
  exact ⟨found, inside, congrFun equal⟩

theorem SameInputs.exists_chain {chain : IdSet EventId}
    (member : chain ∈ resolution.authChainSets) :
    ∃ found ∈ other.authChainSets, ∀ id, id ∈ found.val ↔ id ∈ chain.val := by
  have listed := same.authChainSets.mem_iff.mp (mem_map_of_mem member)
  obtain ⟨found, inside, equal⟩ := mem_map.mp listed
  exact ⟨found, inside, fun id => Iff.of_eq (congrFun equal id)⟩

variable {id : EventId}

theorem SameInputs.agreed {key : TypeStateKey}
    (agreed : Agreed resolution.stateSets key id) :
    Agreed other.stateSets key id := by
  refine ⟨fun empty => agreed.nonempty ?_, fun stateSet member => ?_⟩
  · have length := same.stateSets.length_eq
    simpa [empty] using length
  · obtain ⟨found, inside, equal⟩ := same.symm.exists_stateSet member
    rw [← equal]
    exact agreed.everywhere found inside

theorem SameInputs.disputed {key : TypeStateKey}
    (disputed : Disputed resolution.stateSets key id) :
    Disputed other.stateSets key id := by
  obtain ⟨⟨one, oneMember, holds⟩, two, twoMember, differs⟩ := disputed
  obtain ⟨oneFound, oneInside, oneEqual⟩ := same.exists_stateSet oneMember
  obtain ⟨twoFound, twoInside, twoEqual⟩ := same.exists_stateSet twoMember
  exact ⟨⟨oneFound, oneInside, (oneEqual key).trans holds⟩,
    twoFound, twoInside, fun equal => differs ((twoEqual key).symm.trans equal)⟩

theorem SameInputs.chainsDiffer
    (differ : ChainsDiffer resolution.authChainSets id) :
    ChainsDiffer other.authChainSets id := by
  obtain ⟨⟨one, oneMember, holds⟩, two, twoMember, misses⟩ := differ
  obtain ⟨oneFound, oneInside, oneEqual⟩ := same.exists_chain oneMember
  obtain ⟨twoFound, twoInside, twoEqual⟩ := same.exists_chain twoMember
  exact ⟨⟨oneFound, oneInside, (oneEqual id).mpr holds⟩,
    twoFound, twoInside, fun found => misses ((twoEqual id).mp found)⟩

theorem SameInputs.disputed_iff {key : TypeStateKey} :
    Disputed resolution.stateSets key id ↔ Disputed other.stateSets key id :=
  ⟨same.disputed, same.symm.disputed⟩

theorem SameInputs.fullyConflicted (conflicted : resolution.FullyConflicted id) :
    other.FullyConflicted id := by
  cases conflicted with
  | state known disputed =>
      exact .state (same.eventExists ▸ known) (same.disputed disputed)
  | chain known differ =>
      exact .chain (same.eventExists ▸ known) (same.chainsDiffer differ)
  | subgraph uses onPath =>
      simp only [same.disputed_iff, same.store] at onPath
      exact .subgraph (same.roomVersion ▸ uses) onPath

theorem SameInputs.unconflicted_eq :
    resolution.separated.unconflicted = other.separated.unconflicted := by
  funext key
  apply Option.ext
  intro id
  exact separate_unconflicted.trans
    ((Iff.intro same.agreed same.symm.agreed).trans separate_unconflicted.symm)

theorem SameInputs.conflicted_isEmpty :
    resolution.separated.conflicted.entries.isEmpty =
      other.separated.conflicted.entries.isEmpty := by
  have occupied : ∀ {resolution other : Resolution},
      resolution.SameInputs other →
      other.separated.conflicted.entries = [] →
      resolution.separated.conflicted.entries = [] := by
    intro resolution other same empty
    by_contra nonempty
    obtain ⟨key, id, disputed⟩ := exists_disputed nonempty
    obtain ⟨ids, found, _⟩ := separate_conflicted.mpr (same.disputed disputed)
    have listed : (⟨key, ids⟩ : (_ : TypeStateKey) × List EventId) ∈
        other.separated.conflicted.entries := AList.mem_lookup_iff.mp found
    rw [empty] at listed
    cases listed
  rw [Bool.eq_iff_iff, List.isEmpty_iff, List.isEmpty_iff]
  exact ⟨occupied same.symm, occupied same⟩

end

end

def named (resolution : Resolution) : List EventId :=
  resolution.stateSets.flatMap (fun stateSet =>
      stateSet.entries.map Sigma.snd) ++
    resolution.authChainSets.flatMap Subtype.val

section

variable {resolution : Resolution}

theorem mem_named_of_lookup {stateSet : StateSet EventId}
    {key : TypeStateKey} {id : EventId}
    (member : stateSet ∈ resolution.stateSets)
    (found : stateSet.lookup key = some id) : id ∈ resolution.named := by
  refine mem_append_left _ (mem_flatMap.mpr ⟨stateSet, member, ?_⟩)
  exact mem_map.mpr ⟨⟨key, id⟩, AList.mem_lookup_iff.mp found, rfl⟩

theorem mem_named_of_disputed {key : TypeStateKey} {id : EventId}
    (disputed : Disputed resolution.stateSets key id) :
    id ∈ resolution.named := by
  obtain ⟨stateSet, member, found⟩ := disputed.somewhere
  exact mem_named_of_lookup member found

variable {weight : EventId → Nat}

theorem weight_fullyConflicted (weighs : Weighs
      (fun id => (resolution.store.authEventsOf id).getD []) weight)
    {id : EventId} (conflicted : resolution.FullyConflicted id) :
    weight id ≤ load weight resolution.named := by
  cases conflicted with
  | state _ disputed =>
      exact weight_le_load weight (mem_named_of_disputed disputed)
  | chain _ differ =>
      obtain ⟨chain, member, inside⟩ := differ.somewhere
      exact weight_le_load weight (mem_append_right _
        (mem_flatMap.mpr ⟨chain, member, inside⟩))
  | subgraph _ onPath =>
      obtain ⟨source, _, ⟨key, disputed⟩, _, path, _⟩ := onPath
      have lighter : weight id ≤ weight source :=
        weighs.le_of_path (fun node target edge => by
          obtain ⟨authEvents, found, listed⟩ := edge
          rw [found]
          exact listed) path
      exact lighter.trans
        (weight_le_load weight (mem_named_of_disputed disputed))

def roots (resolution : Resolution) : List EventId :=
  resolution.orders.conflictedEvents.visit
    (conflictingIds resolution.orders.subgraphValues
      resolution.separated.conflicted).dedup

theorem mem_roots {id : EventId} :
    id ∈ resolution.roots ↔ ∃ key, Disputed resolution.stateSets key id := by
  unfold roots
  rw [(resolution.orders.conflictedEvents.perm _).mem_iff, mem_dedup]
  exact mem_conflictingIds

theorem load_roots (weight : EventId → Nat) :
    load weight resolution.roots ≤ load weight resolution.named := by
  refine load_subset weight ?_ ?_
  · exact ((resolution.orders.conflictedEvents.perm _).nodup_iff).mpr
      (nodup_dedup _)
  · intro id member
    obtain ⟨key, disputed⟩ := mem_roots.mp member
    exact mem_named_of_disputed disputed

theorem subgraphAndInitialState_finishes (weighs : Weighs
      (fun id => (resolution.store.authEventsOf id).getD []) weight)
    (enough : load weight resolution.named < resolution.rounds) :
    ∃ subgraph initialState,
      resolution.StartsFrom subgraph initialState := by
  unfold StartsFrom subgraphAndInitialState
  split
  · obtain ⟨subgraph, walked⟩ := calculateConflictedSubgraph_finishes weighs
      ((load_roots weight).trans_lt enough)
    refine ⟨subgraph, fun _ => none, ?_⟩
    change (calculateConflictedSubgraph resolution.store.authEventsOf
      resolution.roots resolution.rounds >>= _) = _
    rw [walked]
    rfl
  · exact ⟨_, _, rfl⟩

section

variable
  (acyclic : ∀ id, ¬ TransGen (AuthEdge resolution.store.authEventsOf) id id)
  {subgraph : List EventId} {initialState : StateMap}
  (result : resolution.StartsFrom subgraph initialState)
include acyclic result

theorem mem_subgraph
    (uses : stateResolutionVersion resolution.roomVersion = .v2_1)
    {id : EventId} (onPath : OnConflictedPath resolution.store.authEventsOf
      (fun id => ∃ key, Disputed resolution.stateSets key id) id) :
    id ∈ subgraph := by
  rcases subgraphAndInitialState_eq_ok result with newer | older
  · have walked : calculateConflictedSubgraph resolution.store.authEventsOf
        resolution.roots resolution.rounds = .ok subgraph := newer.2.2
    refine (mem_calculateConflictedSubgraph acyclic walked).mpr ?_
    simp only [mem_roots]
    exact onPath
  · exact absurd uses older.1

theorem mem_allConflicted_iff {id : EventId} :
    id ∈ resolution.fullConflictedSet subgraph ↔
      resolution.FullyConflicted id := by
  refine ⟨fullyConflicted_of_mem result, fun conflicted => ?_⟩
  rw [mem_allConflicted]
  cases conflicted with
  | state known disputed =>
      exact .inl ⟨.inr ⟨_, disputed⟩, known⟩
  | chain known differ => exact .inl ⟨.inl differ, known⟩
  | subgraph uses onPath =>
      exact .inr (mem_subgraph acyclic result uses onPath)

end

theorem allConflicted_nodup (resolution : Resolution)
    (subgraph : List EventId) :
    (resolution.fullConflictedSet subgraph).Nodup :=
  (resolution.orders.allConflicted.perm _).nodup_iff.mpr (nodup_dedup _)

section

variable {subgraph : List EventId} {initialState : StateMap}
  (result : resolution.StartsFrom subgraph initialState)
include result

theorem initialState_eq : initialState =
      if stateResolutionVersion resolution.roomVersion = .v2_1 then
        fun _ => none
      else resolution.separated.unconflicted := by
  rcases subgraphAndInitialState_eq_ok result with newer | older
  · rw [if_pos newer.1, newer.2.1]
  · rw [if_neg older.1, older.2.1]

theorem initialState_named {key : TypeStateKey} {id : EventId}
    (entry : initialState key = some id) :
    id ∈ resolution.named := by
  rcases subgraphAndInitialState_eq_ok result with newer | older
  · rw [newer.2.1] at entry
    cases entry
  · rw [older.2.1] at entry
    have agreed := separate_unconflicted.mp entry
    obtain ⟨stateSet, member⟩ := exists_mem_of_ne_nil _ agreed.nonempty
    exact mem_named_of_lookup member (agreed.everywhere stateSet member)

theorem outcome_eq : resolution.outcome =
      if resolution.separated.conflicted.entries.isEmpty then
        .ok resolution.separated.unconflicted
      else do
        let resolved ← resolveConflicted resolution.ruma resolution.store
          resolution.orders resolution.rounds resolution.roomVersion
          (resolution.fullConflictedSet subgraph) initialState
        return extendWith resolved resolution.separated.unconflicted := by
  unfold StartsFrom separated at result
  unfold separated outcome resolve
  simp only [result]
  rfl

end

end

/-- Nothing that the inputs leave open reaches the result: the fetches of the
two checks keep the order, and an invite that rests on a third party invite
finds no other one. -/
structure Determined (resolution : Resolution) : Prop where
  control : KeepsOrder resolution.orders.controlCheck.fetches
    resolution.FullyConflicted
  left : KeepsOrder resolution.orders.leftCheck.fetches
    resolution.FullyConflicted
  own : ∀ id event, resolution.FullyConflicted id →
    resolution.store.fetch id = some event →
    CitesOwnInvite resolution.ruma resolution.store event
  keyed : stateResolutionVersion resolution.roomVersion ≠ .v2_1 →
    ∀ key id event, Agreed resolution.stateSets key id →
      resolution.store.fetch id = some event →
      event.kind = .roomThirdPartyInvite → key.1 = .roomThirdPartyInvite

variable {resolution : Resolution}

theorem Determined.initialState_keyed (determined : resolution.Determined)
    {subgraph : List EventId} {initialState : StateMap}
    (result : resolution.StartsFrom subgraph initialState) :
    InvitesKeyed resolution.store initialState := by
  intro key id event entry fetched kind
  rcases subgraphAndInitialState_eq_ok result with newer | older
  · rw [newer.2.1] at entry
    cases entry
  · rw [older.2.1] at entry
    exact determined.keyed older.1 key id event
      (separate_unconflicted.mp entry) fetched kind

theorem outcome_agree_of_enough {other : Resolution}
    (same : resolution.SameInputs other) (once : CitesOnce resolution.store)
    (descends : WellFounded (fun next id =>
      AuthEdge resolution.store.authEventsOf id next))
    (determined : resolution.Determined) (otherDetermined : other.Determined)
    {weight : EventId → Nat} (weighs : Weighs
      (fun id => (resolution.store.authEventsOf id).getD []) weight)
    (enough : load weight resolution.named < resolution.rounds)
    (otherEnough : load weight other.named < other.rounds) :
    Agree Stop.Final resolution.outcome other.outcome := by
  have acyclic := not_transGen_self descends
  have otherWeighs : Weighs
      (fun id => (other.store.authEventsOf id).getD []) weight :=
    same.store ▸ weighs
  obtain ⟨subgraph, initialState, result⟩ :=
    subgraphAndInitialState_finishes weighs enough
  obtain ⟨otherSubgraph, otherInitial, otherResult⟩ :=
    subgraphAndInitialState_finishes otherWeighs otherEnough
  have sameInitial : otherInitial = initialState := by
    rw [initialState_eq result, initialState_eq otherResult,
      same.unconflicted_eq, same.roomVersion]
  subst sameInitial
  have conflicted : ∀ {id}, id ∈ resolution.fullConflictedSet subgraph ↔
      resolution.FullyConflicted id := mem_allConflicted_iff acyclic result
  have otherConflicted : ∀ {id}, id ∈ allConflicted other.orders
      other.eventExists other.authChainSets other.separated.conflicted
      otherSubgraph ↔ other.FullyConflicted id :=
    mem_allConflicted_iff (same.store ▸ acyclic) otherResult
  have sameConflicted : ∀ {id}, resolution.FullyConflicted id ↔
      other.FullyConflicted id :=
    ⟨same.fullyConflicted, same.symm.fullyConflicted⟩
  have perm := (perm_ext_iff_of_nodup (allConflicted_nodup resolution subgraph)
    (allConflicted_nodup other otherSubgraph)).mpr (fun id =>
      conflicted.trans (sameConflicted.trans otherConflicted.symm))
  have listed : (· ∈ resolution.fullConflictedSet subgraph) =
      resolution.FullyConflicted := by
    funext id
    exact propext conflicted
  have sameListed : other.FullyConflicted = resolution.FullyConflicted := by
    funext id
    exact propext sameConflicted.symm
  have heavy : ∀ id, resolution.FullyConflicted id →
      weight id < resolution.rounds ∧ weight id < other.rounds :=
    fun id member =>
      ⟨(weight_fullyConflicted weighs member).trans_lt enough,
        (weight_fullyConflicted otherWeighs
          (same.fullyConflicted member)).trans_lt otherEnough⟩
  rw [outcome_eq result, outcome_eq otherResult, ← same.conflicted_isEmpty,
    ← same.unconflicted_eq]
  split
  · exact .ok _
  refine .bind ?_ (fun resolved _ _ => .ok _)
  rw [← same.ruma, ← same.store, ← same.roomVersion]
  refine resolveConflicted_agree once weighs perm
    (fun id member => heavy id (conflicted.mp member)) ?_
    (fun id member event fetched =>
      determined.own id event (conflicted.mp member) fetched)
    (determined.initialState_keyed result) ?_ ?_ ?_ ?_
  · intro key id entry
    exact ⟨(weight_le_load weight (initialState_named result entry)).trans_lt
        enough,
      (weight_le_load weight (initialState_named otherResult entry)).trans_lt
        otherEnough⟩
  · rw [listed]
    exact determined.control
  · rw [listed, ← sameListed]
    exact otherDetermined.control
  · rw [listed]
    exact determined.left
  · rw [listed, ← sameListed]
    exact otherDetermined.left

def within (resolution : Resolution) (rounds : Nat) : Resolution :=
  { resolution with rounds }

theorem sameInputs_within (resolution : Resolution) (rounds : Nat) :
    resolution.SameInputs (resolution.within rounds) :=
  ⟨rfl, rfl, rfl, rfl, .refl _, .refl _⟩

theorem Determined.within (determined : resolution.Determined) (rounds : Nat) :
    (resolution.within rounds).Determined := by
  have back : ∀ {id}, (resolution.within rounds).FullyConflicted id →
      resolution.FullyConflicted id :=
    (resolution.sameInputs_within rounds).symm.fullyConflicted
  exact ⟨fun ids nodup inside =>
      determined.control ids nodup (fun id member => back (inside id member)),
    fun ids nodup inside =>
      determined.left ids nodup (fun id member => back (inside id member)),
    fun id event conflicted => determined.own id event (back conflicted),
    determined.keyed⟩

theorem SameInputs.within {other : Resolution}
    (same : resolution.SameInputs other) (rounds otherRounds : Nat) :
    (resolution.within rounds).SameInputs (other.within otherRounds) :=
  ⟨same.ruma, same.store, same.eventExists, same.roomVersion, same.stateSets,
    same.authChainSets⟩

/-- Two runs on the same inputs both come to an end, with the same map or both
without one. -/
theorem outcome_agree {resolution other : Resolution}
    (same : resolution.SameInputs other) (once : CitesOnce resolution.store)
    (descends : WellFounded (fun next id =>
      AuthEdge resolution.store.authEventsOf id next))
    (determined : resolution.Determined) (otherDetermined : other.Determined) :
    ∃ bound, ∀ rounds ≥ bound, ∀ otherRounds ≥ bound,
      Agree Stop.Final (resolution.within rounds).outcome
        (other.within otherRounds).outcome := by
  have listed : WellFounded (fun next id =>
      next ∈ (resolution.store.authEventsOf id).getD []) := by
    refine Subrelation.wf (fun {next id} member => ?_) descends
    cases found : resolution.store.authEventsOf id with
    | none => simp [found] at member
    | some authEvents =>
        exact ⟨authEvents, found, by simpa [found] using member⟩
  obtain ⟨weight, weighs⟩ := exists_weight listed
  refine ⟨load weight resolution.named + load weight other.named + 1, ?_⟩
  intro rounds enough otherRounds otherEnough
  have here : load weight (resolution.within rounds).named < rounds := by
    change load weight resolution.named < rounds
    omega
  have there : load weight (other.within otherRounds).named <
      otherRounds := by
    change load weight other.named < otherRounds
    omega
  exact outcome_agree_of_enough (same.within rounds otherRounds) once descends
    (determined.within rounds) (otherDetermined.within otherRounds) weighs here
    there

end Resolution

theorem topicConflict_fetch {id : EventId} {event : Pdu}
    (found : topicConflict.store.fetch id = some event) :
    id = "$room" ∧ event = createPdu RoomVersion.v11 ∨
      id = "$join" ∧ event = joinPdu ∨
      id ≠ "$room" ∧ id ≠ "$join" ∧ ∃ index,
        event = topicPdu RoomVersion.v11 (fun _ => true) index := by
  have unfolded : fetch RoomVersion.v11 (fun _ => true) id =
      some event := found
  unfold fetch at unfolded
  simp only at unfolded
  split at unfolded
  next same =>
    cases unfolded
    exact .inl ⟨same, rfl⟩
  next notRoom =>
    split at unfolded
    next same =>
      cases unfolded
      exact .inr (.inl ⟨same, rfl⟩)
    next notJoin =>
      split at unfolded
      · cases unfolded
        exact .inr (.inr ⟨notRoom, notJoin, _, rfl⟩)
      · cases unfolded

theorem topicConflict_cites {id next : EventId}
    (edge : AuthEdge topicConflict.store.authEventsOf id next) :
    next = "$room" ∧ id ≠ "$room" ∨
      next = "$join" ∧ id ≠ "$room" ∧ id ≠ "$join" := by
  obtain ⟨authEvents, listed, member⟩ := edge
  obtain ⟨event, found, rfl⟩ := Option.map_eq_some_iff.mp listed
  rcases topicConflict_fetch found with ⟨_, rfl⟩ | ⟨rfl, rfl⟩ |
    ⟨notRoom, notJoin, index, rfl⟩
  · cases member
  · exact .inl ⟨mem_singleton.mp member, by decide⟩
  · have cited : next ∈ ["$room", "$join"] := member
    have either : next = "$room" ∨ next = "$join" := by simpa using cited
    exact either.imp (fun same => ⟨same, notRoom⟩)
      (fun same => ⟨same, notRoom, notJoin⟩)

theorem topicConflict_descends : WellFounded (fun next id =>
    AuthEdge topicConflict.store.authEventsOf id next) := by
  let rank : EventId → Nat := fun id =>
    if id = "$room" then 0 else if id = "$join" then 1 else 2
  refine Subrelation.wf (fun {next id} edge => ?_) (measure rank).wf
  change rank next < rank id
  rcases topicConflict_cites edge with ⟨rfl, notRoom⟩ |
    ⟨rfl, notRoom, notJoin⟩
  · simp only [rank, notRoom, if_true, if_false]
    split <;> decide
  · simp [rank, notRoom, notJoin]

theorem topicConflict_once : CitesOnce topicConflict.store := by
  intro id event found left leftCited right rightCited leftEvent rightEvent
    leftFound rightFound sameKind _
  have listed : topicConflict.store.authEventsOf id =
      some event.authEvents := by
    simp [EventStore.authEventsOf, found]
  rcases topicConflict_cites ⟨_, listed, leftCited⟩ with ⟨rfl, _⟩ |
      ⟨rfl, _⟩ <;>
    rcases topicConflict_cites ⟨_, listed, rightCited⟩ with ⟨rfl, _⟩ |
      ⟨rfl, _⟩
  · rfl
  · cases leftFound
    cases rightFound
    cases sameKind
  · cases leftFound
    cases rightFound
    cases sameKind
  · rfl

theorem topicConflict_kinds {id : EventId} {event : Pdu}
    (found : topicConflict.store.fetch id = some event) :
    event.kind ≠ .roomThirdPartyInvite ∧
      thirdPartyInviteOf plainRuma event = none := by
  rcases topicConflict_fetch found with ⟨_, rfl⟩ | ⟨_, rfl⟩ |
    ⟨_, _, index, rfl⟩
  · exact ⟨by decide, rfl⟩
  · exact ⟨by decide, rfl⟩
  · exact ⟨by simp [topicPdu],
      by simp [thirdPartyInviteOf, topicPdu]⟩

def turnedConflict : Resolution :=
  { topicConflict with
    stateSets := topicConflict.stateSets.reverse
    authChainSets := topicConflict.authChainSets.reverse
    orders := { plainOrders with
      existing := newestFirst
      mainline := {
        fetches := newestFirst
        depths := newestFirst
        keys := HashOrder.inserted } } }

theorem turnedConflict_sameInputs : topicConflict.SameInputs turnedConflict :=
  ⟨rfl, rfl, rfl, rfl, ((reverse_perm topicConflict.stateSets).map _).symm,
    ((reverse_perm topicConflict.authChainSets).map _).symm⟩

theorem topicConflict_determined {resolution : Resolution}
    (ruma : resolution.ruma = plainRuma)
    (store : resolution.store = topicConflict.store)
    (control : resolution.orders.controlCheck.fetches = startOrder)
    (left : resolution.orders.leftCheck.fetches = startOrder) :
    resolution.Determined := by
  refine ⟨fun ids _ _ => ?_, fun ids _ _ => ?_, ?_, ?_⟩
  · rw [control]
    exact Completion.oldestFirst_inOrder _ _
  · rw [left]
    exact Completion.oldestFirst_inOrder _ _
  · intro id event _ found invite rests
    rw [store] at found
    rw [ruma, (topicConflict_kinds found).2] at rests
    cases rests
  · intro _ key id event _ found kind
    rw [store] at found
    exact absurd kind (topicConflict_kinds found).1

theorem turnedConflict_agrees :
    ∃ bound, ∀ rounds ≥ bound, ∀ otherRounds ≥ bound,
      Agree Stop.Final (topicConflict.within rounds).outcome
        (turnedConflict.within otherRounds).outcome :=
  Resolution.outcome_agree turnedConflict_sameInputs topicConflict_once
    topicConflict_descends (topicConflict_determined rfl rfl rfl rfl)
    (topicConflict_determined rfl rfl rfl rfl)

def overtakenConflict : Resolution :=
  { topicConflict with
    orders := { plainOrders with leftCheck := ordersOf newestFirst } }

theorem overtakenConflict_topic :
    topicConflict.outcome.map (fun final =>
        final (.other "m.room.topic", "")) = .ok (some "$t") ∧
      overtakenConflict.outcome.map (fun final =>
        final (.other "m.room.topic", "")) = .ok (some "$") :=
  ⟨rfl, rfl⟩

theorem overtakenConflict_disagrees :
    ¬ ∀ resolution other : Resolution, resolution.SameInputs other →
      CitesOnce resolution.store → ∀ final otherFinal,
        resolution.outcome = .ok final → other.outcome = .ok otherFinal →
        final = otherFinal := by
  intro agrees
  have same : topicConflict.SameInputs overtakenConflict :=
    ⟨rfl, rfl, rfl, rfl, .refl _, .refl _⟩
  obtain ⟨topic, otherTopic⟩ := overtakenConflict_topic
  cases result : topicConflict.outcome with
  | error stop =>
      rw [result] at topic
      cases topic
  | ok final =>
      cases otherResult : overtakenConflict.outcome with
      | error stop =>
          rw [otherResult] at otherTopic
          cases otherTopic
      | ok otherFinal =>
          have equal := agrees _ _ same topicConflict_once final otherFinal
            result otherResult
          rw [result] at topic
          rw [otherResult, ← equal] at otherTopic
          have first : final (.other "m.room.topic", "") = some "$t" :=
            Except.ok.inj topic
          have second : final (.other "m.room.topic", "") = some "$" :=
            Except.ok.inj otherTopic
          rw [first] at second
          exact absurd second (by decide)

end ArcanaServer.StateRes
