import ArcanaServer.Library.Descent
import ArcanaServer.StateRes.IterativeAuthCheck
import Mathlib.Logic.Relation

namespace ArcanaServer.StateRes

open Library Relation List TransGen

variable {Id : Type}

/-! The auth graph.  Only the edges of events that can be fetched count. -/

def AuthEdge (authEventsOf : Id → Option (List Id)) (id next : Id) : Prop :=
  ∃ authEvents, authEventsOf id = some authEvents ∧ next ∈ authEvents

/-- An event on a path of at least one edge from one conflicted event to
another, the ends included. -/
def OnConflictedPath (authEventsOf : Id → Option (List Id))
    (conflicted : Id → Prop) (id : Id) : Prop :=
  ∃ source target, conflicted source ∧ conflicted target ∧
    ReflTransGen (AuthEdge authEventsOf) source id ∧
      ReflTransGen (AuthEdge authEventsOf) id target ∧
      (TransGen (AuthEdge authEventsOf) source id ∨
        TransGen (AuthEdge authEventsOf) id target)

inductive Trail (authEventsOf : Id → Option (List Id))
    (conflicted : List Id) : List Id → Prop
  | start {id : Id} (member : id ∈ conflicted) :
      Trail authEventsOf conflicted [id]
  | step {id next : Id} {path : List Id}
      (trail : Trail authEventsOf conflicted (id :: path))
      (edge : AuthEdge authEventsOf id next) :
      Trail authEventsOf conflicted (next :: id :: path)

def Aligned (authEventsOf : Id → Option (List Id)) (conflicted : List Id) :
    List (List Id) → List Id → Prop
  | [], _ => True
  | layer :: stack, path =>
      (∀ id ∈ layer, Trail authEventsOf conflicted (id :: path)) ∧
        Aligned authEventsOf conflicted stack path.tail

section

variable {authEventsOf : Id → Option (List Id)} {conflicted : List Id}

section

variable {id : Id} {path : List Id}
  (trail : Trail authEventsOf conflicted (id :: path))
include trail

theorem Trail.tail : path = [] ∨ Trail authEventsOf conflicted path := by
  cases trail with
  | start _ => exact .inl rfl
  | step earlier _ => exact .inr earlier

theorem Trail.reaches :
    ∀ other ∈ path, TransGen (AuthEdge authEventsOf) other id := by
  induction path generalizing id with
  | nil => intro other member; cases member
  | cons last path ih =>
      cases trail with
      | step earlier edge =>
          intro other member
          rcases mem_cons.mp member with same | older
          · exact same ▸ single edge
          · exact (ih earlier other older).tail edge

theorem Trail.source : ∀ other ∈ id :: path, ∃ source ∈ conflicted,
      ReflTransGen (AuthEdge authEventsOf) source other ∧
        (other = id → path ≠ [] →
          TransGen (AuthEdge authEventsOf) source other) := by
  induction path generalizing id with
  | nil =>
      intro other member
      cases trail with
      | start inside =>
          have same : other = id := by simpa using member
          subst same
          exact ⟨other, inside, .refl, fun _ nonempty => absurd rfl nonempty⟩
  | cons last path ih =>
      cases trail with
      | step earlier edge =>
          intro other member
          obtain ⟨source, inside, toLast, _⟩ := ih earlier last (by simp)
          have toId : TransGen (AuthEdge authEventsOf) source id :=
            tail' toLast edge
          rcases mem_cons.mp member with same | older
          · subst same
            exact ⟨source, inside, toId.to_reflTransGen, fun _ _ => toId⟩
          · obtain ⟨olderSource, olderInside, toOther, _⟩ :=
              ih earlier other older
            rcases Classical.em (other = id) with same | different
            · subst same
              exact ⟨source, inside, toId.to_reflTransGen, fun _ _ => toId⟩
            · exact ⟨olderSource, olderInside, toOther,
                fun same => absurd same different⟩

/-- A trail of more than one event that ends where a conflicted event can be
reached lies on a conflicted path as a whole. -/
theorem Trail.onConflictedPath (nonempty : path ≠ []) {target : Id}
    (inside : target ∈ conflicted)
    (onwards : ReflTransGen (AuthEdge authEventsOf) id target) :
    ∀ other ∈ id :: path,
      OnConflictedPath authEventsOf (· ∈ conflicted) other := by
  intro other member
  obtain ⟨source, sourceInside, toOther, proper⟩ := trail.source other member
  rcases Classical.em (other = id) with same | different
  · subst same
    exact ⟨source, target, sourceInside, inside, toOther, onwards,
      .inl (proper rfl nonempty)⟩
  · have older : other ∈ path := by simpa [different] using member
    have toTarget := trans_left (trail.reaches other older) onwards
    exact ⟨source, target, sourceInside, inside, toOther,
      toTarget.to_reflTransGen, .inr toTarget⟩

end

theorem nextEvent_aligned {stack rest : List (List Id)}
    {path below : List Id} {id : Id}
    (aligned : Aligned authEventsOf conflicted stack path)
    (next : nextEvent stack path = some (id, rest, below)) :
    Trail authEventsOf conflicted (id :: below) ∧
      Aligned authEventsOf conflicted rest below := by
  induction stack generalizing path with
  | nil => cases next
  | cons layer stack ih =>
      cases layer with
      | nil => exact ih aligned.2 next
      | cons first layer =>
          cases next
          exact ⟨aligned.1 id (by simp),
            fun other member => aligned.1 other (mem_cons_of_mem _ member),
            aligned.2⟩

variable [DecidableEq Id]

variable {subgraph : List Id}

theorem mem_addPath {path : List Id} {id : Id} : id ∈ addPath subgraph path ↔
      id ∈ subgraph ∨ (1 < path.length ∧ id ∈ path) := by
  unfold addPath
  split
  next long => simp [long, or_comm]
  next short =>
    have : ¬ 1 < path.length := short
    simp [this]

structure WalkSound (authEventsOf : Id → Option (List Id))
    (conflicted : List Id) (walk : Walk Id) : Prop where
  aligned : Aligned authEventsOf conflicted walk.stack walk.path
  sound : ∀ id ∈ walk.subgraph,
    OnConflictedPath authEventsOf (· ∈ conflicted) id

theorem walkStep_sound {walk : Walk Id} {id : Id}
    (holds : WalkSound authEventsOf conflicted walk)
    (trail : Trail authEventsOf conflicted (id :: walk.path)) :
    WalkSound authEventsOf conflicted
      (walkStep authEventsOf conflicted walk id) := by
  have added : ∀ target ∈ conflicted,
      ReflTransGen (AuthEdge authEventsOf) id target →
      ∀ other ∈ addPath walk.subgraph (id :: walk.path),
        OnConflictedPath authEventsOf (· ∈ conflicted) other := by
    intro target inside onwards other member
    rcases mem_addPath.mp member with old | new
    · exact holds.sound other old
    · have nonempty : walk.path ≠ [] := by
        intro empty
        simp [empty] at new
      exact trail.onConflictedPath nonempty inside onwards other new.2
  unfold walkStep
  split
  next inSubgraph =>
    obtain ⟨_, target, _, inside, _, onwards, _⟩ := holds.sound id inSubgraph
    exact ⟨holds.aligned, added target inside onwards⟩
  · have subgraphSound : ∀ other ∈ (if id ∈ conflicted then
        addPath walk.subgraph (id :: walk.path) else walk.subgraph),
          OnConflictedPath authEventsOf (· ∈ conflicted) other := by
      split
      next inside => exact added id inside .refl
      · exact holds.sound
    unfold visitEvent
    simp only
    split
    · exact ⟨holds.aligned, subgraphSound⟩
    · split
      · exact ⟨holds.aligned, subgraphSound⟩
      next authEvents fetched =>
        refine ⟨⟨fun next member => ?_, holds.aligned⟩, subgraphSound⟩
        exact .step trail ⟨authEvents, fetched, mem_reverse.mp member⟩

theorem walkLoop_sound {rounds : Nat} {walk : Walk Id}
    (holds : WalkSound authEventsOf conflicted walk)
    (result : walkLoop authEventsOf conflicted rounds walk = .ok subgraph) :
    ∀ id ∈ subgraph, OnConflictedPath authEventsOf (· ∈ conflicted) id := by
  induction rounds generalizing walk with
  | zero => cases result
  | succ rounds ih =>
      unfold walkLoop at result
      cases next : nextEvent walk.stack walk.path with
      | none =>
          rw [next] at result
          cases result
          exact holds.sound
      | some taken =>
          obtain ⟨id, stack, path⟩ := taken
          rw [next] at result
          obtain ⟨trail, aligned⟩ := nextEvent_aligned holds.aligned next
          have taken : WalkSound authEventsOf conflicted
              { walk with stack, path } := ⟨aligned, holds.sound⟩
          exact ih (walkStep_sound taken trail) result

/-- Whatever the auth graph, the walk collects nothing but events on conflicted
paths. -/
theorem calculateConflictedSubgraph_sound {rounds : Nat}
    (result : calculateConflictedSubgraph authEventsOf conflicted rounds =
      .ok subgraph) :
    ∀ id ∈ subgraph, OnConflictedPath authEventsOf (· ∈ conflicted) id := by
  have start : WalkSound authEventsOf conflicted
      { subgraph := []
        stack := [conflicted.reverse]
        path := []
        seen := [] } := by
    refine ⟨⟨fun id member => ?_, trivial⟩, by simp⟩
    exact .start (mem_reverse.mp member)
  exact walkLoop_sound start result

def Leads (authEventsOf : Id → Option (List Id)) (conflicted : List Id)
    (id : Id) : Prop :=
  ∃ target ∈ conflicted, ReflTransGen (AuthEdge authEventsOf) id target

structure Handled (authEventsOf : Id → Option (List Id))
    (conflicted subgraph seen : List Id) (id next : Id) : Prop where
  fetched : (authEventsOf next).isSome → next ∈ seen
  target : next ∈ conflicted → next ∈ subgraph
  source : Leads authEventsOf conflicted next → id ∈ subgraph

/-- All edges of the events on the path have been walked, but for those to the
events that wait and to the event `above` that the path goes on with. -/
def Explored (authEventsOf : Id → Option (List Id))
    (conflicted subgraph seen : List Id) :
    Option Id → List (List Id) → List Id → Prop
  | _, [], _ => False
  | above, layer :: stack, [] =>
      stack = [] ∧ ∀ root ∈ conflicted, root ∉ layer → some root ≠ above →
        (authEventsOf root).isSome → root ∈ seen
  | above, layer :: stack, id :: path =>
      (∀ next, AuthEdge authEventsOf id next → next ∉ layer →
        some next ≠ above →
        Handled authEventsOf conflicted subgraph seen id next) ∧
        Explored authEventsOf conflicted subgraph seen (some id) stack path

/-- The state of the walk, `above` being the event that is looked at. -/
structure WalkComplete (authEventsOf : Id → Option (List Id))
    (conflicted subgraph seen : List Id) (above : Option Id)
    (stack : List (List Id)) (path : List Id) : Prop where
  trail : path = [] ∨ Trail authEventsOf conflicted path
  aligned : Aligned authEventsOf conflicted stack path
  pathSeen : ∀ id ∈ path, id ∈ seen
  subgraphSeen : ∀ id ∈ subgraph, (authEventsOf id).isSome → id ∈ seen
  chain : path.IsChain (fun id below =>
    (id ∈ subgraph → below ∈ subgraph) ∧ (id ∈ conflicted → id ∈ subgraph))
  explored : Explored authEventsOf conflicted subgraph seen above stack path
  finished : ∀ id ∈ seen, id ∉ path → ∀ next, AuthEdge authEventsOf id next →
    Handled authEventsOf conflicted subgraph seen id next

section

variable {subgraph subgraph' seen seen' : List Id}

section

omit [DecidableEq Id]

theorem Handled.mono {id next : Id}
    (handled : Handled authEventsOf conflicted subgraph seen id next)
    (more : subgraph ⊆ subgraph') (later : seen ⊆ seen') :
    Handled authEventsOf conflicted subgraph' seen' id next :=
  ⟨fun fetched => later (handled.fetched fetched),
    fun target => more (handled.target target),
    fun leads => more (handled.source leads)⟩

variable {stack : List (List Id)} {path : List Id}

theorem Explored.mono {above : Option Id}
    (explored : Explored authEventsOf conflicted subgraph seen above stack
      path) (more : subgraph ⊆ subgraph') (later : seen ⊆ seen') :
    Explored authEventsOf conflicted subgraph' seen' above stack path := by
  induction path generalizing above stack with
  | nil =>
      cases stack with
      | nil => exact explored
      | cons layer stack =>
          exact ⟨explored.1, fun root inside waits other fetched =>
            later (explored.2 root inside waits other fetched)⟩
  | cons id path ih =>
      cases stack with
      | nil => exact explored
      | cons layer stack =>
          exact ⟨fun next edge waits other =>
            (explored.1 next edge waits other).mono more later,
            ih explored.2⟩

theorem Trail.not_mem {id : Id}
    (acyclic : ∀ id, ¬ TransGen (AuthEdge authEventsOf) id id)
    (trail : Trail authEventsOf conflicted (id :: path)) : id ∉ path :=
  fun member => acyclic id (trail.reaches id member)

/-- Every edge of `id` has been walked, so `id` is in the subgraph if it leads
on to a conflicted event. -/
theorem mem_subgraph_of_handled {id target : Id}
    (handled : ∀ next, AuthEdge authEventsOf id next →
      Handled authEventsOf conflicted subgraph seen id next)
    (inside : target ∈ conflicted)
    (path : TransGen (AuthEdge authEventsOf) id target) : id ∈ subgraph := by
  obtain ⟨next, edge, onwards⟩ := head'_iff.mp path
  exact (handled next edge).source ⟨target, inside, onwards⟩

theorem WalkComplete.pop {id : Id}
    (holds : WalkComplete authEventsOf conflicted subgraph seen none
      ([] :: stack) (id :: path)) :
    WalkComplete authEventsOf conflicted subgraph seen none stack path := by
  have trail : Trail authEventsOf conflicted (id :: path) :=
    holds.trail.resolve_left (by simp)
  have handled : ∀ next, AuthEdge authEventsOf id next →
      Handled authEventsOf conflicted subgraph seen id next :=
    fun next edge => holds.explored.1 next edge (by simp) (by simp)
  have idSeen : id ∈ seen := holds.pathSeen id (by simp)
  refine ⟨trail.tail, holds.aligned.2,
    fun other member => holds.pathSeen other (mem_cons_of_mem _ member),
    holds.subgraphSeen, ?_, ?_, ?_⟩
  · cases path with
    | nil => exact isChain_nil
    | cons below path => exact (isChain_cons_cons.mp holds.chain).2
  · have lower := holds.explored.2
    cases path with
    | nil =>
        cases stack with
        | nil => exact lower
        | cons layer stack =>
            refine ⟨lower.1, fun root inside waits _ fetched => ?_⟩
            rcases Classical.em (root = id) with same | different
            · exact same ▸ idSeen
            · exact lower.2 root inside waits (by simpa using different)
                fetched
    | cons below path =>
        cases stack with
        | nil => exact lower
        | cons layer stack =>
            obtain ⟨step, _⟩ := isChain_cons_cons.mp holds.chain
            refine ⟨fun next edge waits _ => ?_, lower.2⟩
            rcases Classical.em (next = id) with same | different
            · subst same
              refine ⟨fun _ => idSeen, step.2, ?_⟩
              rintro ⟨target, inside, onwards⟩
              rcases ReflTransGen.cases_head onwards with reached | further
              · exact step.1 (step.2 (reached ▸ inside))
              · obtain ⟨next, edge, rest⟩ := further
                exact step.1 (mem_subgraph_of_handled handled inside
                  (head' edge rest))
            · exact lower.1 next edge waits (by simpa using different)
  · intro other otherSeen outside next edge
    rcases Classical.em (other = id) with same | different
    · subst same
      exact handled next edge
    · exact holds.finished other otherSeen (by simp [different, outside])
        next edge

theorem WalkComplete.take {layer : List Id} {id : Id}
    (holds : WalkComplete authEventsOf conflicted subgraph seen none
      ((id :: layer) :: stack) path) :
    Trail authEventsOf conflicted (id :: path) ∧
      WalkComplete authEventsOf conflicted subgraph seen (some id)
        (layer :: stack) path := by
  refine ⟨holds.aligned.1 id (by simp), holds.trail, ?_, holds.pathSeen,
    holds.subgraphSeen, holds.chain, ?_, holds.finished⟩
  · exact ⟨fun other member =>
      holds.aligned.1 other (mem_cons_of_mem _ member), holds.aligned.2⟩
  · have explored := holds.explored
    cases path with
    | nil =>
        refine ⟨explored.1, fun root inside waits other fetched => ?_⟩
        have different : root ≠ id := by simpa using other
        exact explored.2 root inside (by simp [different, waits]) (by simp)
          fetched
    | cons below path =>
        refine ⟨fun next edge waits other => ?_, explored.2⟩
        have different : next ≠ id := by simpa using other
        exact explored.1 next edge (by simp [different, waits]) (by simp)

theorem nextEvent_complete {rest : List (List Id)} {below : List Id} {id : Id}
    (holds : WalkComplete authEventsOf conflicted subgraph seen none stack
      path) (next : nextEvent stack path = some (id, rest, below)) :
    Trail authEventsOf conflicted (id :: below) ∧
      WalkComplete authEventsOf conflicted subgraph seen (some id) rest
        below := by
  induction stack generalizing path with
  | nil => cases next
  | cons layer stack ih =>
      cases layer with
      | cons first layer =>
          cases next
          exact holds.take
      | nil =>
          cases path with
          | cons last path => exact ih (holds.pop) next
          | nil =>
              have empty := holds.explored.1
              subst empty
              cases next

/-- When nothing waits any more, every event that was seen is finished and
every conflicted event that can be fetched was seen. -/
theorem nextEvent_none
    (holds : WalkComplete authEventsOf conflicted subgraph seen none stack
      path) (next : nextEvent stack path = none) :
    (∀ id ∈ seen, ∀ next, AuthEdge authEventsOf id next →
        Handled authEventsOf conflicted subgraph seen id next) ∧
      ∀ root ∈ conflicted, (authEventsOf root).isSome → root ∈ seen := by
  induction stack generalizing path with
  | nil => exact absurd holds.explored (by cases path <;> exact id)
  | cons layer stack ih =>
      cases layer with
      | cons first layer => cases next
      | nil =>
          cases path with
          | cons last path => exact ih (holds.pop) next
          | nil =>
              exact ⟨fun id member next edge =>
                holds.finished id member (by simp) next edge,
                fun root inside fetched =>
                  holds.explored.2 root inside (by simp) (by simp) fetched⟩

theorem isChain_of_subset (inside : path ⊆ subgraph) :
    path.IsChain (fun id below => (id ∈ subgraph → below ∈ subgraph) ∧
      (id ∈ conflicted → id ∈ subgraph)) := by
  induction path with
  | nil => exact isChain_nil
  | cons id path ih =>
      cases path with
      | nil => exact isChain_singleton _
      | cons below path =>
          exact isChain_cons_cons.mpr
            ⟨⟨fun _ => inside (by simp), fun _ => inside (by simp)⟩,
              ih (fun _ member => inside (mem_cons_of_mem _ member))⟩

end

variable {path : List Id}

theorem isChain_addPath {id : Id} (chain : path.IsChain (fun id below =>
      (id ∈ subgraph → below ∈ subgraph) ∧ (id ∈ conflicted → id ∈ subgraph))) :
    path.IsChain (fun other below => (other ∈ addPath subgraph (id :: path) →
          below ∈ addPath subgraph (id :: path)) ∧
        (other ∈ conflicted → other ∈ addPath subgraph (id :: path))) := by
  cases path with
  | nil => exact isChain_nil
  | cons below path =>
      refine isChain_of_subset (fun other member => mem_addPath.mpr ?_)
      exact .inr ⟨by simp, mem_cons_of_mem _ member⟩

omit [DecidableEq Id] in
theorem WalkComplete.pass {stack : List (List Id)} {id : Id}
    (holds : WalkComplete authEventsOf conflicted subgraph seen (some id)
      stack path) (more : subgraph ⊆ subgraph')
    (subgraphSeen : ∀ other ∈ subgraph', (authEventsOf other).isSome →
      other ∈ seen) (chain : path.IsChain (fun id below =>
      (id ∈ subgraph' → below ∈ subgraph') ∧
        (id ∈ conflicted → id ∈ subgraph')))
    (idSeen : (authEventsOf id).isSome → id ∈ seen) (handled : ∀ below ∈ path,
      Handled authEventsOf conflicted subgraph' seen below id) :
    WalkComplete authEventsOf conflicted subgraph' seen none stack path := by
  have explored := holds.explored.mono more (List.Subset.refl seen)
  refine ⟨holds.trail, holds.aligned, holds.pathSeen, subgraphSeen, chain, ?_,
    fun other otherSeen outside next edge =>
      (holds.finished other otherSeen outside next edge).mono more
        (List.Subset.refl seen)⟩
  cases stack with
  | nil => cases path <;> exact explored
  | cons layer stack =>
      cases path with
      | nil =>
          refine ⟨explored.1, fun root inside waits _ fetched => ?_⟩
          rcases Classical.em (root = id) with same | different
          · exact same ▸ idSeen (same ▸ fetched)
          · exact explored.2 root inside waits (by simpa using different)
              fetched
      | cons below path =>
          refine ⟨fun next edge waits _ => ?_, explored.2⟩
          rcases Classical.em (next = id) with same | different
          · exact same ▸ handled below (by simp)
          · exact explored.1 next edge waits (by simpa using different)

variable {walk : Walk Id}

theorem WalkComplete.meet {id : Id}
    (holds : WalkComplete authEventsOf conflicted walk.subgraph walk.seen
      (some id) walk.stack walk.path) (member : id ∈ walk.subgraph) :
    WalkComplete authEventsOf conflicted
      (addPath walk.subgraph (id :: walk.path)) walk.seen none walk.stack
      walk.path := by
  have idSeen := holds.subgraphSeen id member
  refine holds.pass (fun _ old => mem_addPath.mpr (.inl old)) ?_
    (isChain_addPath holds.chain) idSeen ?_
  · intro other added fetched
    rcases mem_addPath.mp added with old | new
    · exact holds.subgraphSeen other old fetched
    · rcases mem_cons.mp new.2 with same | below
      · exact same ▸ idSeen (same ▸ fetched)
      · exact holds.pathSeen other below
  · intro below inPath
    have added : below ∈ addPath walk.subgraph (id :: walk.path) :=
      mem_addPath.mpr (.inr ⟨by
        simpa using length_pos_of_mem inPath, by simp [inPath]⟩)
    exact ⟨idSeen, fun _ => mem_addPath.mpr (.inl member), fun _ => added⟩

def visitedSubgraph (conflicted subgraph path : List Id) (id : Id) :
    List Id :=
  if id ∈ conflicted then addPath subgraph (id :: path) else subgraph

theorem mem_visitedSubgraph {id other : Id} :
    other ∈ visitedSubgraph conflicted subgraph path id ↔ other ∈ subgraph ∨
        id ∈ conflicted ∧ path ≠ [] ∧ other ∈ id :: path := by
  unfold visitedSubgraph
  split
  next inside =>
    rw [mem_addPath]
    simp [inside, length_pos_iff]
  next outside => simp [outside]

theorem isChain_visitedSubgraph (id : Id) (chain : path.IsChain (fun id below =>
      (id ∈ subgraph → below ∈ subgraph) ∧ (id ∈ conflicted → id ∈ subgraph))) :
    path.IsChain (fun other below =>
      (other ∈ visitedSubgraph conflicted subgraph path id →
          below ∈ visitedSubgraph conflicted subgraph path id) ∧
        (other ∈ conflicted →
          other ∈ visitedSubgraph conflicted subgraph path id)) := by
  unfold visitedSubgraph
  split
  · exact isChain_addPath chain
  · exact chain

/-- The walk looks at an event that it has been at before, or that cannot be
fetched: behind it there is no conflicted event. -/
theorem WalkComplete.turn {id : Id}
    (holds : WalkComplete authEventsOf conflicted walk.subgraph walk.seen
      (some id) walk.stack walk.path)
    (idSeen : (authEventsOf id).isSome → id ∈ walk.seen)
    (barren : ∀ target ∈ conflicted,
      ¬ TransGen (AuthEdge authEventsOf) id target) :
    WalkComplete authEventsOf conflicted
      (visitedSubgraph conflicted walk.subgraph walk.path id) walk.seen none
      walk.stack walk.path := by
  refine holds.pass (fun _ old => mem_visitedSubgraph.mpr (.inl old)) ?_
    (isChain_visitedSubgraph id holds.chain) idSeen ?_
  · intro other added fetched
    rcases mem_visitedSubgraph.mp added with old | new
    · exact holds.subgraphSeen other old fetched
    · rcases mem_cons.mp new.2.2 with same | below
      · exact same ▸ idSeen (same ▸ fetched)
      · exact holds.pathSeen other below
  · intro below inPath
    have nonempty : walk.path ≠ [] := ne_nil_of_mem inPath
    refine ⟨idSeen, fun inside => mem_visitedSubgraph.mpr
      (.inr ⟨inside, nonempty, by simp⟩), ?_⟩
    rintro ⟨target, inside, onwards⟩
    rcases ReflTransGen.cases_head onwards with reached | further
    · exact mem_visitedSubgraph.mpr
        (.inr ⟨reached ▸ inside, nonempty, by simp [inPath]⟩)
    · obtain ⟨next, edge, rest⟩ := further
      exact absurd (head' edge rest) (barren target inside)

/-- The walk goes on to the auth events of an event that it sees for the first
time. -/
theorem WalkComplete.enter {id : Id} {authEvents : List Id}
    (holds : WalkComplete authEventsOf conflicted walk.subgraph walk.seen
      (some id) walk.stack walk.path)
    (trail : Trail authEventsOf conflicted (id :: walk.path))
    (fresh : id ∉ walk.subgraph) (fetched : authEventsOf id = some authEvents) :
    WalkComplete authEventsOf conflicted
      (visitedSubgraph conflicted walk.subgraph walk.path id)
      (id :: walk.seen) none (authEvents.reverse :: walk.stack)
      (id :: walk.path) := by
  have more : walk.subgraph ⊆
      visitedSubgraph conflicted walk.subgraph walk.path id :=
    fun _ old => mem_visitedSubgraph.mpr (.inl old)
  have later : walk.seen ⊆ id :: walk.seen := subset_cons_self _ _
  refine ⟨.inr trail, ⟨fun next member => ?_, holds.aligned⟩, ?_, ?_, ?_,
    ⟨fun next edge waits _ => ?_, holds.explored.mono more later⟩, ?_⟩
  · exact .step trail ⟨authEvents, fetched, mem_reverse.mp member⟩
  · intro other member
    rcases mem_cons.mp member with same | below
    · simp [same]
    · exact later (holds.pathSeen other below)
  · intro other added otherFetched
    rcases mem_visitedSubgraph.mp added with old | new
    · exact later (holds.subgraphSeen other old otherFetched)
    · rcases mem_cons.mp new.2.2 with same | below
      · simp [same]
      · exact later (holds.pathSeen other below)
  · have chain := isChain_visitedSubgraph id holds.chain
    cases path : walk.path with
    | nil => exact isChain_singleton _
    | cons below rest =>
        rw [path] at chain
        refine isChain_cons_cons.mpr ⟨⟨fun added => ?_, fun inside => ?_⟩,
          chain⟩
        · have new := (mem_visitedSubgraph.mp added).resolve_left fresh
          exact mem_visitedSubgraph.mpr (.inr ⟨new.1, by simp, by simp⟩)
        · exact mem_visitedSubgraph.mpr (.inr ⟨inside, by simp, by simp⟩)
  · obtain ⟨listed, found, member⟩ := edge
    rw [fetched] at found
    cases found
    exact absurd (mem_reverse.mpr member) waits
  · intro other otherSeen outside next edge
    rw [mem_cons, not_or] at outside
    have before : other ∈ walk.seen :=
      (mem_cons.mp otherSeen).resolve_left outside.1
    exact (holds.finished other before outside.2 next edge).mono more later

theorem walkStep_complete
    (acyclic : ∀ id, ¬ TransGen (AuthEdge authEventsOf) id id)
    (walk : Walk Id) {id : Id}
    (holds : WalkComplete authEventsOf conflicted walk.subgraph walk.seen
      (some id) walk.stack walk.path)
    (trail : Trail authEventsOf conflicted (id :: walk.path)) :
    let next := walkStep authEventsOf conflicted walk id
    WalkComplete authEventsOf conflicted next.subgraph next.seen none
      next.stack next.path := by
  unfold walkStep
  rcases Decidable.em (id ∈ walk.subgraph) with member | fresh
  · rw [if_pos member]
    exact holds.meet member
  · rw [if_neg fresh]
    unfold visitEvent
    rcases Decidable.em (id ∈ walk.seen) with known | unknown
    · simp only [known, if_true]
      refine holds.turn (fun _ => known) (fun target inside path => ?_)
      -- The event has been finished, so it would be in the subgraph.
      exact fresh (mem_subgraph_of_handled
        (holds.finished id known (trail.not_mem acyclic)) inside path)
    · simp only [unknown, if_false]
      cases fetched : authEventsOf id with
      | none =>
          refine holds.turn (by simp [fetched]) (fun target _ path => ?_)
          obtain ⟨next, ⟨authEvents, found, _⟩, _⟩ := head'_iff.mp path
          rw [fetched] at found
          cases found
      | some authEvents => exact holds.enter trail fresh fetched

theorem walkLoop_complete {rounds : Nat} {found : List Id}
    (acyclic : ∀ id, ¬ TransGen (AuthEdge authEventsOf) id id)
    (holds : WalkComplete authEventsOf conflicted walk.subgraph walk.seen none
      walk.stack walk.path)
    (result : walkLoop authEventsOf conflicted rounds walk = .ok found) :
    ∃ seen, (∀ id ∈ seen, ∀ next, AuthEdge authEventsOf id next →
        Handled authEventsOf conflicted found seen id next) ∧
      ∀ root ∈ conflicted, (authEventsOf root).isSome → root ∈ seen := by
  induction rounds generalizing walk with
  | zero => cases result
  | succ rounds ih =>
      unfold walkLoop at result
      cases next : nextEvent walk.stack walk.path with
      | none =>
          rw [next] at result
          cases result
          exact ⟨walk.seen, nextEvent_none holds next⟩
      | some taken =>
          obtain ⟨id, stack, path⟩ := taken
          rw [next] at result
          obtain ⟨trail, taken⟩ := nextEvent_complete holds next
          exact ih (walkStep_complete acyclic { walk with stack, path } taken
            trail) result

end

variable {rounds : Nat}

/-- In an acyclic auth graph the walk collects just the events on conflicted
paths. -/
theorem mem_calculateConflictedSubgraph {subgraph : List Id}
    (acyclic : ∀ id, ¬ TransGen (AuthEdge authEventsOf) id id)
    (result : calculateConflictedSubgraph authEventsOf conflicted rounds =
      .ok subgraph) {id : Id} :
    id ∈ subgraph ↔ OnConflictedPath authEventsOf (· ∈ conflicted) id := by
  refine ⟨calculateConflictedSubgraph_sound result id, ?_⟩
  have start : WalkComplete authEventsOf conflicted [] [] none
      [conflicted.reverse] [] := by
    refine ⟨.inl rfl, ⟨fun root member => ?_, trivial⟩, by simp, by simp,
      isChain_nil, ⟨rfl, fun root inside waits => ?_⟩, by simp⟩
    · exact .start (mem_reverse.mp member)
    · exact absurd (mem_reverse.mpr inside) waits
  obtain ⟨seen, handled, roots⟩ := walkLoop_complete acyclic start result
  have fetched : ∀ {other next}, AuthEdge authEventsOf other next →
      (authEventsOf other).isSome := by
    rintro other next ⟨authEvents, found, _⟩
    simp [found]
  have reached : ∀ {source other}, source ∈ conflicted →
      ReflTransGen (AuthEdge authEventsOf) source other →
      (authEventsOf other).isSome → other ∈ seen := by
    intro source other inside path
    induction path with
    | refl => exact roots source inside
    | tail _ edge ih => exact (handled _ (ih (fetched edge)) _ edge).fetched
  rintro ⟨source, target, fromSource, toTarget, before, after, proper⟩
  rcases ReflTransGen.cases_head after with same | further
  · subst same
    have arrives : TransGen (AuthEdge authEventsOf) source id :=
      proper.elim (fun path => path) (fun cycle => absurd cycle (acyclic id))
    obtain ⟨last, path, edge⟩ := tail'_iff.mp arrives
    exact (handled last (reached fromSource path (fetched edge)) id
      edge).target toTarget
  · obtain ⟨next, edge, rest⟩ := further
    exact mem_subgraph_of_handled
      (handled id (reached fromSource before (fetched edge))) toTarget
      (head' edge rest)

omit [DecidableEq Id] in
theorem nextEvent_flatten {stack rest : List (List Id)}
    {path below : List Id} {id : Id}
    (next : nextEvent stack path = some (id, rest, below)) :
    stack.flatten = id :: rest.flatten := by
  induction stack generalizing path with
  | nil => cases next
  | cons layer stack ih =>
      cases layer with
      | nil => exact ih next
      | cons first layer =>
          cases next
          rfl

theorem load_walkStep (authEventsOf : Id → Option (List Id))
    (conflicted : List Id) (weight : Id → Nat) (walk : Walk Id) (id : Id) :
    load weight (walkStep authEventsOf conflicted walk id).stack.flatten ≤
      load weight ((authEventsOf id).getD []) +
        load weight walk.stack.flatten := by
  unfold walkStep visitEvent
  simp only
  split
  · exact Nat.le_add_left _ _
  · split
    · exact Nat.le_add_left _ _
    · split
      · exact Nat.le_add_left _ _
      next authEvents fetched =>
        simp [fetched, load_perm weight (reverse_perm authEvents)]

/-- The loop ends if each of its rounds lowers a number. -/
theorem walkLoop_descends {measure : Walk Id → Nat}
    (lowers : ∀ walk id stack path,
      nextEvent walk.stack walk.path = some (id, stack, path) →
        measure (walkStep authEventsOf conflicted { walk with stack, path }
          id) < measure walk) {walk : Walk Id} (enough : measure walk < rounds) :
    ∃ subgraph,
      walkLoop authEventsOf conflicted rounds walk = .ok subgraph := by
  induction rounds generalizing walk with
  | zero => exact absurd enough (Nat.not_lt_zero _)
  | succ rounds ih =>
      unfold walkLoop
      cases next : nextEvent walk.stack walk.path with
      | none => exact ⟨walk.subgraph, rfl⟩
      | some taken =>
          obtain ⟨id, stack, path⟩ := taken
          exact ih (Nat.lt_of_lt_of_le (lowers walk id stack path next)
            (Nat.le_of_lt_succ enough))

theorem walkLoop_finishes {weight : Id → Nat}
    (weighs : Weighs (fun id => (authEventsOf id).getD []) weight)
    {walk : Walk Id} (enough : load weight walk.stack.flatten < rounds) :
    ∃ subgraph,
      walkLoop authEventsOf conflicted rounds walk = .ok subgraph := by
  let measure (walk : Walk Id) : Nat := load weight walk.stack.flatten
  have lowers : ∀ walk id stack path,
      nextEvent walk.stack walk.path = some (id, stack, path) →
        measure (walkStep authEventsOf conflicted { walk with stack, path }
          id) < measure walk := by
    intro walk id stack path next
    have step := load_walkStep authEventsOf conflicted weight
      { walk with stack, path } id
    have heavier : load weight ((authEventsOf id).getD []) < weight id :=
      weighs id
    simp only [measure]
    rw [nextEvent_flatten next, load_cons]
    simp only at step
    omega
  exact walkLoop_descends lowers enough

theorem calculateConflictedSubgraph_finishes {weight : Id → Nat}
    (weighs : Weighs (fun id => (authEventsOf id).getD []) weight)
    (enough : load weight conflicted < rounds) :
    ∃ subgraph, calculateConflictedSubgraph authEventsOf conflicted rounds =
      .ok subgraph := by
  refine walkLoop_finishes weighs ?_
  simpa [load_perm weight (reverse_perm conflicted)] using enough

def countAuthEvents (authEventsOf : Id → Option (List Id)) (id : Id) : Nat :=
  ((authEventsOf id).getD []).length

theorem waiting_walkStep {fetchable : Finset Id}
    (known : ∀ id, (authEventsOf id).isSome → id ∈ fetchable)
    (walk : Walk Id) (id : Id) :
    let after := walkStep authEventsOf conflicted walk id
    after.stack.flatten.length +
        unmarked (countAuthEvents authEventsOf) fetchable after.seen ≤
      walk.stack.flatten.length +
        unmarked (countAuthEvents authEventsOf) fetchable walk.seen := by
  intro after
  unfold after walkStep visitEvent
  simp only
  split
  · exact le_refl _
  · split
    · exact le_refl _
    next fresh =>
      split
      · exact le_refl _
      next authEvents fetched =>
        have marked := @unmarked_mark _ _ (countAuthEvents authEventsOf)
          _ _ _ (known id (by rw [fetched]; rfl)) fresh
        have count : countAuthEvents authEventsOf id =
            authEvents.length := by
          unfold countAuthEvents
          rw [fetched]
          rfl
        simp only [flatten_cons, length_append, length_reverse]
        omega

theorem walkLoop_ends {fetchable : Finset Id}
    (known : ∀ id, (authEventsOf id).isSome → id ∈ fetchable) {walk : Walk Id}
    (enough : walk.stack.flatten.length +
      unmarked (countAuthEvents authEventsOf) fetchable walk.seen < rounds) :
    ∃ subgraph,
      walkLoop authEventsOf conflicted rounds walk = .ok subgraph := by
  let measure (walk : Walk Id) : Nat := walk.stack.flatten.length +
    unmarked (countAuthEvents authEventsOf) fetchable walk.seen
  have lowers : ∀ walk id stack path,
      nextEvent walk.stack walk.path = some (id, stack, path) →
        measure (walkStep authEventsOf conflicted { walk with stack, path }
          id) < measure walk := by
    intro walk id stack path next
    refine Nat.lt_of_le_of_lt (waiting_walkStep known _ id) ?_
    simp only [measure]
    rw [nextEvent_flatten next, length_cons]
    omega
  exact walkLoop_descends lowers enough

end

/-- The walk ends on every auth graph of finitely many events, and on one
without cycles it collects just the events on conflicted paths. -/
theorem calculateConflictedSubgraph_exact [DecidableEq Id]
    {authEventsOf : Id → Option (List Id)}
    (finite : {id | (authEventsOf id).isSome = true}.Finite)
    (conflicted : List Id) : (∃ bound, ∀ rounds, bound ≤ rounds →
      ∃ subgraph, calculateConflictedSubgraph authEventsOf conflicted rounds =
        .ok subgraph) ∧
    ((∀ id, ¬ TransGen (AuthEdge authEventsOf) id id) → ∀ rounds subgraph,
        calculateConflictedSubgraph authEventsOf conflicted rounds =
          .ok subgraph →
        ∀ id, id ∈ subgraph ↔
          OnConflictedPath authEventsOf (· ∈ conflicted) id) := by
  constructor
  · have known : ∀ id, (authEventsOf id).isSome = true →
        id ∈ finite.toFinset := fun id some => finite.mem_toFinset.mpr some
    refine ⟨_, fun rounds enough =>
      walkLoop_ends known (Nat.lt_of_succ_le enough)⟩
  · intro acyclic rounds subgraph result id
    exact mem_calculateConflictedSubgraph acyclic result

namespace FourEvents

def authEventsOf : Nat → Option (List Nat)
  | 0 => some [1, 7]
  | 1 => some [2]
  | 2 => some []
  | 3 => some [8, 9]
  | _ => none

theorem authEventsOf_finite :
    {id | (authEventsOf id).isSome = true}.Finite := by
  refine (Set.finite_le_nat 3).subset (fun id some => ?_)
  by_contra above
  match id with
  | 0 | 1 | 2 | 3 => exact above (by simp)
  | _ + 4 => cases some

theorem authEventsOf_acyclic (id : Nat) :
    ¬ TransGen (AuthEdge authEventsOf) id id := by
  have climbs : ∀ id next, AuthEdge authEventsOf id next → id < next := by
    rintro id next ⟨authEvents, found, member⟩
    match id with
    | 0 | 1 | 2 | 3 =>
        cases found
        simp at member
        try omega
    | _ + 4 => cases found
  have rises : ∀ {next}, TransGen (AuthEdge authEventsOf) id next →
      id < next := by
    intro next path
    induction path with
    | single edge => exact climbs _ _ edge
    | tail _ edge ih => exact ih.trans (climbs _ _ edge)
  exact fun cycle => (rises cycle).false

/-- The middle of the path from `0` to `2` is collected, `3` is not. -/
theorem subgraph_exact :
    (∃ subgraph, calculateConflictedSubgraph authEventsOf [3, 0, 2] 9 =
      .ok subgraph ∧ 1 ∈ subgraph ∧ 3 ∉ subgraph) ∧
    ¬ OnConflictedPath authEventsOf (· ∈ [3, 0, 2]) 3 := by
  have result : calculateConflictedSubgraph authEventsOf [3, 0, 2] 9 =
      .ok [2, 1, 0] := by decide
  have exact := (calculateConflictedSubgraph_exact authEventsOf_finite
    [3, 0, 2]).2 authEventsOf_acyclic 9 _ result
  refine ⟨⟨_, result, by decide, by decide⟩, fun onPath => ?_⟩
  exact absurd ((exact 3).mpr onPath) (by decide)

end FourEvents

end ArcanaServer.StateRes
