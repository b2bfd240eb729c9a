import ArcanaServer.Library.HashOrder
import ArcanaServer.Library.Settles
import ArcanaServer.StateRes.TopologicalSort
import Mathlib.Data.Char

namespace ArcanaServer.StateRes

open Library List

section

variable {Id : Type} [LinearOrder Id]

/-! The sort emits an exhausted greedy order of the graph, for every iteration
order of its hash maps. -/

/-- The order in which the heap ranks the nodes. -/
def sortKey (keyFn : KeyFn Id) (node : Id) : Intᵒᵈ ×ₗ Nat ×ₗ Id :=
  match keyFn node with
  | .ok (powerLevel, originServerTs) =>
      TieBreaker.key ⟨powerLevel, originServerTs, node⟩
  | .error _ => TieBreaker.key ⟨0, 0, node⟩

def SortLe (keyFn : KeyFn Id) (left right : Id) : Prop :=
  sortKey keyFn left ≤ sortKey keyFn right

theorem SortLe.antisymm (keyFn : KeyFn Id) (left right : Id)
    (below : SortLe keyFn left right) (above : SortLe keyFn right left) :
    left = right := by
  have equal : sortKey keyFn left = sortKey keyFn right :=
    le_antisymm below above
  unfold sortKey at equal
  split at equal <;> split at equal <;>
    exact congrArg TieBreaker.eventId (TieBreaker.key_injective equal)

def KeyFailure (graph : Graph Id) (keyFn : KeyFn Id) (failure : Failure) :
    Prop :=
  ∃ node, Grounded graph.keys (edgesOf graph) node ∧ keyFn node = .error failure

section

omit [LinearOrder Id]

theorem tieBreaker_settles (keyFn : KeyFn Id) (node : Id) :
    Settles (fun failure => keyFn node = .error failure)
      (fun item => tieBreaker keyFn node = .ok item ∧ item.eventId = node)
      (tieBreaker keyFn node) := by
  cases result : keyFn node with
  | error failure => simp [tieBreaker, result, Settles, bind, Except.bind]
  | ok key =>
      simp [tieBreaker, result, Settles, bind, Except.bind, pure, Except.pure]

theorem pushIfZero_settles (keyFn : KeyFn Id) (node : Id) (edges : List Id)
    (heap : List (TieBreaker Id)) :
    Settles (fun failure => edges = [] ∧ keyFn node = .error failure)
      (fun pushed =>
        (edges = [] ∧ ∃ item, tieBreaker keyFn item.eventId = .ok item ∧
          item.eventId = node ∧ pushed = heap ++ [item]) ∨
        (edges ≠ [] ∧ pushed = heap))
      (pushIfZero keyFn node edges heap) := by
  cases edges with
  | cons first rest => exact .inr ⟨by simp, rfl⟩
  | nil =>
      have built := tieBreaker_settles keyFn node
      simp only [pushIfZero, isEmpty_nil, if_true]
      cases result : tieBreaker keyFn node with
      | error failure => exact ⟨trivial, built.of_error result⟩
      | ok item =>
          obtain ⟨_, same⟩ := built.of_ok result
          exact .inl ⟨trivial, item, by rw [same]; exact result, same, rfl⟩

theorem sortKey_of_tieBreaker {keyFn : KeyFn Id} {item : TieBreaker Id}
    (built : tieBreaker keyFn item.eventId = .ok item) :
    sortKey keyFn item.eventId = item.key := by
  unfold tieBreaker at built
  unfold sortKey
  cases result : keyFn item.eventId with
  | error failure => simp [result, bind, Except.bind] at built
  | ok key =>
      simp only [result, bind, Except.bind, pure, Except.pure,
        Except.ok.injEq] at built
      simp only [built]

theorem keyFn_of_tieBreaker {keyFn : KeyFn Id} {item : TieBreaker Id}
    (built : tieBreaker keyFn item.eventId = .ok item) :
    ∃ key, keyFn item.eventId = .ok key := by
  cases result : keyFn item.eventId with
  | error failure =>
      simp [tieBreaker, result, bind, Except.bind] at built
  | ok key => exact ⟨key, rfl⟩

end

theorem edgesOf_eq {graph : Graph Id} {entry : (_ : Id) × List Id}
    (member : entry ∈ graph.entries) : edgesOf graph entry.1 = entry.2 := by
  have found : graph.lookup entry.1 = some entry.2 :=
    AList.mem_lookup_iff.mpr member
  simp [edgesOf, found]

theorem exists_entry {graph : Graph Id} {node : Id}
    (known : node ∈ graph.keys) :
    (⟨node, edgesOf graph node⟩ : (_ : Id) × List Id) ∈ graph.entries := by
  obtain ⟨entry, member, rfl⟩ := mem_map.mp known
  rw [edgesOf_eq member]
  exact member

structure ReverseInv (visited : List ((_ : Id) × List Id))
    (reverseGraph : Id → Option (List Id)) : Prop where
  parents : ∀ node parents, reverseGraph node = some parents →
    parents.Nodup ∧ ∀ parent, parent ∈ parents ↔
      ∃ entry ∈ visited, entry.1 = parent ∧ node ∈ entry.2
  referenced : ∀ node, reverseGraph node = none →
    ∀ entry ∈ visited, entry.1 ≠ node ∧ node ∉ entry.2

structure ZeroInv (keyFn : KeyFn Id) (visited : List ((_ : Id) × List Id))
    (zeroOutdegree : List (TieBreaker Id)) : Prop where
  items : ∀ item ∈ zeroOutdegree, tieBreaker keyFn item.eventId = .ok item
  empty : ∀ node, node ∈ zeroOutdegree.map TieBreaker.eventId ↔
    ∃ entry ∈ visited, entry.1 = node ∧ entry.2 = []
  nodup : (visited.map Sigma.fst).Nodup →
    (zeroOutdegree.map TieBreaker.eventId).Nodup

theorem entryInsert_fold (edges : List Id) (node : Id) :
    ∀ (map : Id → Option (List Id)) (key : Id),
      edges.foldl (fun map edge => entryInsert map edge node) map key =
        if key ∈ edges then some (((map key).getD []).insert node)
        else map key := by
  induction edges with
  | nil => intro map key; simp
  | cons edge rest ih =>
      intro map key
      rw [foldl_cons, ih]
      by_cases same : key = edge
      · subst same
        by_cases again : key ∈ rest <;> simp [entryInsert, again]
      · simp [entryInsert, same]

theorem addReferences_apply (reverseGraph : Id → Option (List Id))
    (node : Id) (edges : List Id) (key : Id) :
    addReferences reverseGraph node edges key =
      if key ∈ edges then
        some (((reverseGraph key).getD []).insert node)
      else if key = node then some ((reverseGraph key).getD [])
      else reverseGraph key := by
  rw [addReferences, entryInsert_fold]
  by_cases same : key = node
  · subst same
    simp [entryOrDefault]
  · simp [entryOrDefault, same]

variable {visited : List ((_ : Id) × List Id)}

omit [LinearOrder Id] in
theorem ReverseInv.getD {reverseGraph : Id → Option (List Id)}
    (holds : ReverseInv visited reverseGraph) (node : Id) :
    ((reverseGraph node).getD []).Nodup ∧
      ∀ parent, parent ∈ (reverseGraph node).getD [] ↔
        ∃ entry ∈ visited, entry.1 = parent ∧ node ∈ entry.2 := by
  cases found : reverseGraph node with
  | none =>
      refine ⟨nodup_nil, fun parent => ⟨fun member => ?_, ?_⟩⟩
      · simp at member
      · rintro ⟨earlier, member, _, edge⟩
        exact absurd edge (holds.referenced node found earlier member).2
  | some parents => exact holds.parents node parents found

omit [LinearOrder Id] in
theorem exists_visited_snoc {node : Id} {edges : List Id} (key parent : Id) :
    (∃ entry ∈ visited ++ [⟨node, edges⟩], entry.1 = parent ∧ key ∈ entry.2) ↔
      (∃ entry ∈ visited, entry.1 = parent ∧ key ∈ entry.2) ∨
        (node = parent ∧ key ∈ edges) := by
  constructor
  · rintro ⟨entry, inside, same, edge⟩
    rcases mem_append.mp inside with old | new
    · exact .inl ⟨entry, old, same, edge⟩
    · have : entry = ⟨node, edges⟩ := by simpa using new
      subst this
      exact .inr ⟨same, edge⟩
  · rintro (⟨entry, old, same, edge⟩ | ⟨same, edge⟩)
    · exact ⟨entry, mem_append_left _ old, same, edge⟩
    · exact ⟨⟨node, edges⟩, by simp, same, edge⟩

theorem ReverseInv.addReferences {reverseGraph : Id → Option (List Id)}
    (holds : ReverseInv visited reverseGraph) (node : Id) (edges : List Id) :
    ReverseInv (visited ++ [⟨node, edges⟩])
      (addReferences reverseGraph node edges) := by
  constructor
  · intro key found result
    obtain ⟨nodup, members⟩ := holds.getD key
    rw [addReferences_apply] at result
    by_cases edge : key ∈ edges
    · simp only [edge, if_true, Option.some.injEq] at result
      subst result
      refine ⟨nodup.insert, fun parent => ?_⟩
      rw [mem_insert_iff, members, exists_visited_snoc]
      constructor
      · rintro (rfl | old)
        · exact .inr ⟨rfl, edge⟩
        · exact .inl old
      · rintro (old | ⟨same, _⟩)
        · exact .inr old
        · exact .inl same.symm
    · have foundEq : found = (reverseGraph key).getD [] := by
        by_cases same : key = node
        · subst same
          simpa [edge] using result.symm
        · simp only [edge, if_false, same] at result
          simp [result]
      subst foundEq
      refine ⟨nodup, fun parent => ?_⟩
      rw [members, exists_visited_snoc]
      simp [edge]
  · intro key result entry inside
    rw [addReferences_apply] at result
    by_cases edge : key ∈ edges
    · simp [edge] at result
    · by_cases same : key = node
      · subst same
        simp [edge] at result
      · simp only [edge, if_false, same] at result
        rcases mem_append.mp inside with old | new
        · exact holds.referenced key result entry old
        · have : entry = ⟨node, edges⟩ := by simpa using new
          subst this
          exact ⟨fun equal => same equal.symm, edge⟩

section

variable {keyFn : KeyFn Id} {visited : List ((_ : Id) × List Id)}
  {zeroOutdegree : List (TieBreaker Id)}
  (holds : ZeroInv keyFn visited zeroOutdegree)
include holds

omit [LinearOrder Id] in
theorem ZeroInv.skip (node first : Id) (rest : List Id) :
    ZeroInv keyFn (visited ++ [⟨node, first :: rest⟩]) zeroOutdegree := by
  refine ⟨holds.items, fun other => ?_, fun nodup => ?_⟩
  · rw [holds.empty other]
    constructor
    · rintro ⟨entry, old, same, empty⟩
      exact ⟨entry, mem_append_left _ old, same, empty⟩
    · rintro ⟨entry, inside, same, empty⟩
      rcases mem_append.mp inside with old | new
      · exact ⟨entry, old, same, empty⟩
      · have : entry = ⟨node, first :: rest⟩ := by simpa using new
        subst this
        simp at empty
  · rw [map_append, nodup_append] at nodup
    exact holds.nodup nodup.1

omit [LinearOrder Id] in
theorem ZeroInv.push {item : TieBreaker Id}
    (built : tieBreaker keyFn item.eventId = .ok item)
    (fresh : item.eventId ∉ visited.map Sigma.fst) :
    ZeroInv keyFn (visited ++ [⟨item.eventId, []⟩])
      (zeroOutdegree ++ [item]) := by
  refine ⟨fun other inside => ?_, fun other => ?_, fun nodup => ?_⟩
  · rcases mem_append.mp inside with old | new
    · exact holds.items other old
    · have : other = item := by simpa using new
      subst this
      exact built
  · simp only [map_append, mem_append, holds.empty other,
      map_cons, map_nil, mem_singleton]
    constructor
    · rintro (⟨entry, old, equal, empty⟩ | rfl)
      · exact ⟨entry, .inl old, equal, empty⟩
      · exact ⟨⟨item.eventId, []⟩, .inr rfl, rfl, rfl⟩
    · rintro ⟨entry, old | rfl, equal, empty⟩
      · exact .inl ⟨entry, old, equal, empty⟩
      · exact .inr equal.symm
  · rw [map_append, nodup_append] at nodup
    rw [map_append, nodup_append]
    refine ⟨holds.nodup nodup.1, by simp, ?_⟩
    intro left leftMember right rightMember equal
    have rightEq : right = item.eventId := by simpa using rightMember
    obtain ⟨entry, old, sameNode, _⟩ := (holds.empty left).mp leftMember
    apply fresh
    rw [← rightEq, ← equal, ← sameNode]
    exact mem_map_of_mem old

end

def DegreesInv (keyFn : KeyFn Id) (visited : List ((_ : Id) × List Id))
    (degrees : Degrees Id) : Prop :=
  ReverseInv visited degrees.reverseGraph ∧
    ZeroInv keyFn visited degrees.zeroOutdegree

theorem countNode_settles {keyFn : KeyFn Id} {graph : Graph Id}
    {visited : List ((_ : Id) × List Id)} {degrees : Degrees Id}
    {entry : (_ : Id) × List Id} (member : entry ∈ graph.entries)
    (fresh : entry.1 ∉ visited.map Sigma.fst)
    (holds : DegreesInv keyFn visited degrees) :
    Settles (KeyFailure graph keyFn) (DegreesInv keyFn (visited ++ [entry]))
      (countNode keyFn degrees entry) := by
  obtain ⟨node, edges⟩ := entry
  obtain ⟨reverse, zero⟩ := holds
  cases edges with
  | cons first rest =>
      exact ⟨reverse.addReferences node (first :: rest),
        zero.skip node first rest⟩
  | nil =>
      have grounded : Grounded graph.keys (edgesOf graph) node := by
        refine .intro (mem_map.mpr ⟨_, member, rfl⟩) ?_
        intro target edge
        rw [edgesOf_eq member] at edge
        simp at edge
      refine Settles.bind ((pushIfZero_settles keyFn node [] _).mono ?_
        (fun _ pushed => pushed)) ?_
      · exact fun failure failed => ⟨node, grounded, failed.2⟩
      · rintro heap (⟨_, item, built, rfl, rfl⟩ | ⟨nonempty, _⟩)
        · exact ⟨reverse.addReferences item.eventId [], zero.push built fresh⟩
        · simp at nonempty

theorem countNodes_settles (graph : Graph Id) (keyFn : KeyFn Id) :
    Settles (KeyFailure graph keyFn) (DegreesInv keyFn graph.entries)
      (graph.entries.foldlM (countNode keyFn)
        { reverseGraph := fun _ => none, zeroOutdegree := [] }) := by
  have start : DegreesInv keyFn [] (Degrees.mk (fun _ : Id => none) []) := by
    refine ⟨⟨?_, ?_⟩, ⟨?_, ?_, ?_⟩⟩ <;> simp
  refine Settles.foldlM (DegreesInv keyFn) graph.entries [] _ start ?_
  intro before next after degrees split member holds
  refine countNode_settles member ?_ holds
  have nodup := graph.nodupKeys
  simp only [nil_append] at split
  rw [List.NodupKeys, split, List.keys, map_append, map_cons,
    nodup_append] at nodup
  intro earlier
  exact nodup.2.2 next.1 earlier next.1 (by simp) rfl

/-! The second loop.  Between two rounds the heap holds exactly the nodes that
are ready, and the outdegree of a node is what is left of its edges. -/

structure SortInv (graph : Graph Id) (keyFn : KeyFn Id)
    (state : SortState Id) : Prop where
  degrees : ∀ node ∈ graph.keys, state.outdegreeMap node =
    some ((edgesOf graph node).filter (· ∉ state.sorted))
  items : ∀ item ∈ state.heap, tieBreaker keyFn item.eventId = .ok item
  nodup : (state.heap.map TieBreaker.eventId).Nodup
  ready : ∀ node, node ∈ state.heap.map TieBreaker.eventId ↔
    Ready graph.keys (edgesOf graph) state.sorted node
  greedy : Greedy (SortLe keyFn) graph.keys (edgesOf graph) state.sorted
  keyed : ∀ node ∈ state.sorted, ∃ key, keyFn node = .ok key

/-- The invariant of the loop over the parents of `node`, which has just been
taken from the heap of a state in which `sorted` was already emitted. -/
structure ClearInv (graph : Graph Id) (keyFn : KeyFn Id) (sorted : List Id)
    (node : Id) (visited : List Id) (state : SortState Id) : Prop where
  unchanged : state.sorted = sorted
  degrees : ∀ other ∈ graph.keys, state.outdegreeMap other =
    some ((edgesOf graph other).filter (fun target =>
      target ∉ sorted ∧ (other ∈ visited → target ≠ node)))
  items : ∀ item ∈ state.heap, tieBreaker keyFn item.eventId = .ok item
  nodup : (state.heap.map TieBreaker.eventId).Nodup
  ready : ∀ other, other ∈ state.heap.map TieBreaker.eventId ↔
    (other ≠ node ∧ Ready graph.keys (edgesOf graph) sorted other) ∨
      (other ∈ visited ∧
        Ready graph.keys (edgesOf graph) (sorted ++ [node]) other)

section

variable {graph : Graph Id} {keyFn : KeyFn Id} {sorted : List Id} {node : Id}

theorem ready_snoc_of_parent
    (greedy : Greedy (SortLe keyFn) graph.keys (edgesOf graph) sorted)
    (popped : Ready graph.keys (edgesOf graph) sorted node) {parent : Id}
    (known : parent ∈ graph.keys) (edge : node ∈ edgesOf graph parent)
    (cleared : ∀ target ∈ edgesOf graph parent,
      target ∈ sorted ∨ target = node) :
    Ready graph.keys (edgesOf graph) (sorted ++ [node]) parent := by
  refine ⟨known, ?_, fun target inside => ?_⟩
  · intro emitted
    rcases mem_append.mp emitted with earlier | new
    · obtain ⟨before, after, split⟩ := append_of_mem earlier
      have inBefore := greedy.topological before parent after split node edge
      exact popped.fresh (by rw [split]; exact mem_append_left _ inBefore)
    · have : parent = node := by simpa using new
      subst this
      exact popped.fresh (popped.cleared _ edge)
  · rcases cleared target inside with earlier | new
    · exact mem_append_left _ earlier
    · simp [new]

theorem grounded_of_ready
    (greedy : Greedy (SortLe keyFn) graph.keys (edgesOf graph) sorted)
    {other : Id} (ready : Ready graph.keys (edgesOf graph) sorted other) :
    Grounded graph.keys (edgesOf graph) other :=
  .intro ready.known (fun target edge =>
    greedy.topological.grounded (fun _ member => greedy.mem_nodes member)
      target (ready.cleared target edge))

section

variable (greedy : Greedy (SortLe keyFn) graph.keys (edgesOf graph) sorted)
  (popped : Ready graph.keys (edgesOf graph) sorted node)
  (least : ∀ other, Ready graph.keys (edgesOf graph) sorted other → SortLe keyFn
    node other)
include greedy popped least

variable {state : SortState Id}

theorem clearEdge_settles {visited : List Id} {parent : Id}
    (known : parent ∈ graph.keys) (edge : node ∈ edgesOf graph parent)
    (fresh : parent ∉ visited)
    (holds : ClearInv graph keyFn sorted node visited state) :
    Settles (KeyFailure graph keyFn)
      (ClearInv graph keyFn sorted node (visited ++ [parent]))
      (clearEdge keyFn node state parent) := by
  have greedy' := greedy.snoc popped least
  -- What is left of the parent's edges once `node` is removed from them.
  have out : ((edgesOf graph parent).filter (fun target =>
      target ∉ sorted ∧ (parent ∈ visited → target ≠ node))).filter (· ≠ node) =
      (edgesOf graph parent).filter (fun target =>
        target ∉ sorted ∧ target ≠ node) := by
    rw [filter_filter]
    apply filter_congr
    intro target _
    simp [fresh, and_comm]
  have readyOfEmpty :
      (edgesOf graph parent).filter (fun target =>
        target ∉ sorted ∧ target ≠ node) = [] →
      Ready graph.keys (edgesOf graph) (sorted ++ [node]) parent := by
    intro empty
    refine ready_snoc_of_parent greedy popped known edge ?_
    intro target inside
    have dropped := filter_eq_nil_iff.mp empty target inside
    by_cases earlier : target ∈ sorted
    · exact .inl earlier
    · exact .inr (by simpa [earlier] using dropped)
  have degrees : ∀ other ∈ graph.keys, Function.update state.outdegreeMap parent
          (some ((edgesOf graph parent).filter (fun target =>
            target ∉ sorted ∧ target ≠ node))) other =
        some ((edgesOf graph other).filter (fun target =>
          target ∉ sorted ∧ (other ∈ visited ++ [parent] → target ≠ node))) := by
    intro other otherKnown
    by_cases same : other = parent
    · subst same
      simp
    · rw [Function.update_of_ne same, holds.degrees other otherKnown]
      simp [same]
  have found := holds.degrees parent known
  unfold clearEdge
  rw [found]
  simp only [out]
  refine Settles.bind ((pushIfZero_settles keyFn parent _ state.heap).mono ?_
    (fun _ pushed => pushed)) ?_
  · rintro failure ⟨empty, failed⟩
    exact ⟨parent, grounded_of_ready greedy' (readyOfEmpty empty), failed⟩
  · rintro heap (⟨empty, item, built, rfl, rfl⟩ | ⟨nonempty, rfl⟩)
    · have ready := readyOfEmpty empty
      refine ⟨holds.unchanged, degrees, ?_, ?_, ?_⟩
      · intro other inside
        rcases mem_append.mp inside with old | new
        · exact holds.items other old
        · have : other = item := by simpa using new
          subst this
          exact built
      · rw [map_append, nodup_append]
        refine ⟨holds.nodup, by simp, ?_⟩
        intro left leftMember right rightMember equal
        have rightEq : right = item.eventId := by simpa using rightMember
        rw [equal, rightEq] at leftMember
        rcases (holds.ready item.eventId).mp leftMember with
          ⟨_, early⟩ | ⟨early, _⟩
        · exact popped.fresh (early.cleared node edge)
        · exact fresh early
      · intro other
        simp only [map_append, mem_append, holds.ready other,
          map_cons, map_nil, mem_singleton]
        constructor
        · rintro ((old | ⟨early, old⟩) | rfl)
          · exact .inl old
          · exact .inr ⟨.inl early, old⟩
          · exact .inr ⟨.inr rfl, ready⟩
        · rintro (old | ⟨early | new, old⟩)
          · exact .inl (.inl old)
          · exact .inl (.inr ⟨early, old⟩)
          · exact .inr new
    · refine ⟨holds.unchanged, degrees, holds.items, holds.nodup, ?_⟩
      intro other
      rw [holds.ready other]
      simp only [mem_append, mem_singleton]
      constructor
      · rintro (old | ⟨early, old⟩)
        · exact .inl old
        · exact .inr ⟨.inl early, old⟩
      · rintro (old | ⟨early | rfl, ready⟩)
        · exact .inl old
        · exact .inr ⟨early, ready⟩
        · -- An edge is left, so the parent is not ready yet.
          refine absurd (filter_eq_nil_iff.mpr ?_) nonempty
          intro target inside
          have emitted := ready.cleared target inside
          simp only [mem_append, mem_singleton] at emitted
          rcases emitted with earlier | new
          · simp [earlier]
          · simp [new]

theorem clearEdges_settles {parents : List Id} (nodup : parents.Nodup)
    (members : ∀ parent, parent ∈ parents ↔
      parent ∈ graph.keys ∧ node ∈ edgesOf graph parent)
    (start : ClearInv graph keyFn sorted node [] state) :
    Settles (KeyFailure graph keyFn) (ClearInv graph keyFn sorted node parents)
      (parents.foldlM (clearEdge keyFn node) state) := by
  refine Settles.foldlM (ClearInv graph keyFn sorted node) parents [] state
    start ?_
  intro before parent after state split member holds
  obtain ⟨known, edge⟩ := (members parent).mp member
  refine clearEdge_settles greedy popped least known edge ?_ holds
  simp only [nil_append] at split
  rw [split, nodup_append] at nodup
  exact fun earlier => nodup.2.2 parent earlier parent (by simp) rfl

theorem ClearInv.next (keyed : ∀ other ∈ sorted, ∃ key, keyFn other = .ok key)
    (nodeKeyed : ∃ key, keyFn node = .ok key) {parents : List Id}
    (members : ∀ parent, parent ∈ parents ↔
      parent ∈ graph.keys ∧ node ∈ edgesOf graph parent)
    (holds : ClearInv graph keyFn sorted node parents state) :
    SortInv graph keyFn { state with sorted := state.sorted ++ [node] } := by
  have sortedEq := holds.unchanged
  refine ⟨?_, holds.items, holds.nodup, ?_, ?_, ?_⟩
  · intro other known
    rw [sortedEq, holds.degrees other known]
    congr 1
    apply filter_congr
    intro target inside
    by_cases same : target = node
    · subst same
      have parent : other ∈ parents := (members other).mpr ⟨known, inside⟩
      simp [parent]
    · simp [same]
  · intro other
    rw [sortedEq]
    refine (holds.ready other).trans ⟨?_, ?_⟩
    · rintro (⟨different, ready⟩ | ⟨_, ready⟩)
      · refine ⟨ready.known, ?_, fun target inside =>
          mem_append_left _ (ready.cleared target inside)⟩
        simp [ready.fresh, different]
      · exact ready
    · intro ready
      have fresh : other ∉ sorted ∧ other ≠ node := by
        simpa using ready.fresh
      by_cases edge : node ∈ edgesOf graph other
      · exact .inr ⟨(members other).mpr ⟨ready.known, edge⟩, ready⟩
      · refine .inl ⟨fresh.2, ready.known, fresh.1, ?_⟩
        intro target inside
        rcases mem_append.mp (ready.cleared target inside) with old | new
        · exact old
        · have : target = node := by simpa using new
          exact absurd (this ▸ inside) edge
  · rw [sortedEq]
    exact greedy.snoc popped least
  · rw [sortedEq]
    intro other member
    rcases mem_append.mp member with old | new
    · exact keyed other old
    · have : other = node := by simpa using new
      exact this ▸ nodeKeyed

end

end

theorem SortInv.popped {graph : Graph Id} {keyFn : KeyFn Id}
    {state : SortState Id} (holds : SortInv graph keyFn state)
    {item : TieBreaker Id} {heap : List (TieBreaker Id)}
    (result : heapPop state.heap = some (item, heap)) :
    Ready graph.keys (edgesOf graph) state.sorted item.eventId ∧
      (∀ other, Ready graph.keys (edgesOf graph) state.sorted other →
        SortLe keyFn item.eventId other) ∧
      ClearInv graph keyFn state.sorted item.eventId []
        { state with heap } := by
  obtain ⟨member, rfl, least⟩ := heapPop_eq_some result
  have ready := (holds.ready item.eventId).mp (mem_map_of_mem member)
  have heapNodup : state.heap.Nodup := List.Nodup.of_map _ holds.nodup
  refine ⟨ready, ?_, rfl, ?_, ?_, ?_, ?_⟩
  · intro other otherReady
    obtain ⟨otherItem, inside, rfl⟩ :=
      mem_map.mp ((holds.ready other).mpr otherReady)
    unfold SortLe
    rw [sortKey_of_tieBreaker (holds.items item member),
      sortKey_of_tieBreaker (holds.items otherItem inside)]
    exact least otherItem inside
  · intro other known
    simpa using holds.degrees other known
  · exact fun other inside => holds.items other (mem_of_mem_erase inside)
  · exact (List.Sublist.map _ erase_sublist).nodup holds.nodup
  · intro other
    simp only [not_mem_nil, false_and, or_false]
    rw [← holds.ready other]
    constructor
    · intro inside
      obtain ⟨otherItem, kept, rfl⟩ := mem_map.mp inside
      have old := mem_of_mem_erase kept
      refine ⟨fun same => ?_, mem_map_of_mem old⟩
      have : otherItem = item := inj_on_of_nodup_map holds.nodup old member same
      subst this
      exact heapNodup.not_mem_erase kept
    · rintro ⟨different, inside⟩
      obtain ⟨otherItem, old, rfl⟩ := mem_map.mp inside
      refine mem_map_of_mem ((mem_erase_of_ne ?_).mpr old)
      rintro rfl
      exact different rfl

variable {order : List Id → List Id}

theorem sortLoop_settles {graph : Graph Id} {keyFn : KeyFn Id}
    (shuffled : ∀ list, (order list).Perm list)
    {reverseGraph : Id → Option (List Id)}
    (reverse : ReverseInv graph.entries reverseGraph) :
    ∀ (rounds : Nat) (state : SortState Id), SortInv graph keyFn state →
      state.sorted.length + rounds = graph.keys.length →
      Settles (KeyFailure graph keyFn) (fun final => SortInv graph keyFn final ∧
          Exhausted graph.keys (edgesOf graph) final.sorted)
        (sortLoop keyFn order reverseGraph rounds state) := by
  intro rounds
  induction rounds with
  | zero =>
      intro state holds rounds
      refine ⟨holds, fun node ready => ?_⟩
      have covers : graph.keys ⊆ state.sorted :=
        (subperm_of_subset holds.greedy.nodup
          (fun _ member => holds.greedy.mem_nodes member)).perm_of_length_le
            (by omega) |>.symm.subset
      exact ready.fresh (covers ready.known)
  | succ rounds ih =>
      intro state holds budget
      unfold sortLoop
      cases result : heapPop state.heap with
      | none =>
          refine ⟨holds, fun node ready => ?_⟩
          have inside := (holds.ready node).mpr ready
          rw [heapPop_eq_none.mp result] at inside
          simp at inside
      | some next =>
          obtain ⟨item, heap⟩ := next
          obtain ⟨ready, least, start⟩ := holds.popped result
          cases found : reverseGraph item.eventId with
          | none =>
              have unknown := reverse.referenced item.eventId found _
                (exists_entry ready.known)
              exact absurd rfl unknown.1
          | some parents =>
              have members : ∀ parent, parent ∈ order parents ↔
                  parent ∈ graph.keys ∧ item.eventId ∈ edgesOf graph parent := by
                intro parent
                rw [(shuffled parents).mem_iff,
                  (reverse.parents item.eventId parents found).2 parent]
                constructor
                · rintro ⟨entry, inside, rfl, edge⟩
                  exact ⟨mem_map_of_mem inside,
                    by rw [edgesOf_eq inside]; exact edge⟩
                · rintro ⟨known, edge⟩
                  exact ⟨_, exists_entry known, rfl, edge⟩
              have nodup : (order parents).Nodup :=
                (shuffled parents).nodup_iff.mpr
                  (reverse.parents item.eventId parents found).1
              simp only [found]
              refine Settles.bind (clearEdges_settles holds.greedy ready least
                nodup members start) ?_
              intro cleared clearedHolds
              have nodeKeyed := keyFn_of_tieBreaker
                (holds.items item (heapPop_eq_some result).1)
              have next := clearedHolds.next holds.greedy ready least
                holds.keyed nodeKeyed members
              refine ih _ next ?_
              simp only [clearedHolds.unchanged, length_append,
                length_singleton]
              omega

/-- What the sort returns, whatever the order in which the hash maps are
visited: the least-first order of the grounded nodes, unless the key function
fails on one of them. -/
theorem lexicographicalTopologicalSort_settles (graph : Graph Id)
    (keyFn : KeyFn Id) (shuffled : ∀ list, (order list).Perm list) :
    Settles (KeyFailure graph keyFn)
      (fun sorted => Greedy (SortLe keyFn) graph.keys (edgesOf graph) sorted ∧
          Exhausted graph.keys (edgesOf graph) sorted ∧
          ∀ node ∈ sorted, ∃ key, keyFn node = .ok key)
      (lexicographicalTopologicalSort graph keyFn order) := by
  refine Settles.bind (countNodes_settles graph keyFn) ?_
  rintro degrees ⟨reverse, zero⟩
  have start : SortInv graph keyFn
      { outdegreeMap := graph.lookup
        heap := degrees.zeroOutdegree
        sorted := [] } := by
    refine ⟨?_, zero.items, zero.nodup graph.nodupKeys, ?_, Greedy.nil, ?_⟩
    · intro node known
      have found : graph.lookup node = some (edgesOf graph node) :=
        AList.mem_lookup_iff.mpr (exists_entry known)
      simpa using found
    · intro node
      refine (zero.empty node).trans ⟨?_, ?_⟩
      · rintro ⟨entry, inside, rfl, empty⟩
        refine ⟨mem_map_of_mem inside, by simp, ?_⟩
        rw [edgesOf_eq inside, empty]
        simp
      · intro ready
        refine ⟨_, exists_entry ready.known, rfl, ?_⟩
        exact eq_nil_iff_forall_not_mem.mpr (fun target inside => by
          simpa using ready.cleared target inside)
    · simp
  refine Settles.bind (sortLoop_settles shuffled reverse _ _ start (by simp)) ?_
  rintro final ⟨holds, exhausted⟩
  exact ⟨holds.greedy, exhausted, holds.keyed⟩

/-- The sort gives the same order for graphs and keys that do not differ but in
the order of their hash maps. -/
theorem lexicographicalTopologicalSort_agree {graph other : Graph Id}
    {keyFn otherKeyFn : KeyFn Id} {otherOrder : List Id → List Id}
    (shuffled : ∀ list, (order list).Perm list)
    (otherShuffled : ∀ list, (otherOrder list).Perm list)
    (same : SameGraph graph.keys other.keys (edgesOf graph) (edgesOf other))
    (sameKeys : ∀ node ∈ graph.keys, keyFn node = otherKeyFn node) :
    Agree (fun _ => True) (lexicographicalTopologicalSort graph keyFn order)
      (lexicographicalTopologicalSort other otherKeyFn otherOrder) := by
  have settled := lexicographicalTopologicalSort_settles graph keyFn shuffled
  have otherSettled :=
    lexicographicalTopologicalSort_settles other otherKeyFn otherShuffled
  have known : ∀ {node}, Grounded graph.keys (edgesOf graph) node →
      node ∈ graph.keys := fun grounded => by
    cases grounded with
    | intro known _ => exact known
  cases result : lexicographicalTopologicalSort graph keyFn order with
  | error failure =>
      cases otherResult :
          lexicographicalTopologicalSort other otherKeyFn otherOrder with
      | error _ => exact .error trivial trivial
      | ok sorted =>
          obtain ⟨node, grounded, failed⟩ := settled.of_error result
          obtain ⟨_, exhausted, keyed⟩ := otherSettled.of_ok otherResult
          obtain ⟨key, found⟩ := keyed node
            ((Grounded.of_congr same grounded).mem_of_exhausted exhausted)
          rw [← sameKeys node (known grounded), failed] at found
          cases found
  | ok sorted =>
      obtain ⟨greedy, exhausted, keyed⟩ := settled.of_ok result
      cases otherResult :
          lexicographicalTopologicalSort other otherKeyFn otherOrder with
      | error failure =>
          obtain ⟨node, otherGrounded, failed⟩ :=
            otherSettled.of_error otherResult
          have grounded := Grounded.of_congr same.symm otherGrounded
          obtain ⟨key, found⟩ := keyed node
            (grounded.mem_of_exhausted exhausted)
          rw [sameKeys node (known grounded), failed] at found
          cases found
      | ok otherSorted =>
          obtain ⟨otherGreedy, otherExhausted, _⟩ :=
            otherSettled.of_ok otherResult
          have sameOrder : ∀ left ∈ graph.keys, ∀ right ∈ graph.keys,
              SortLe keyFn left right → SortLe otherKeyFn left right := by
            intro left leftKnown right rightKnown below
            unfold SortLe sortKey
            rw [← sameKeys left leftKnown, ← sameKeys right rightKnown]
            exact below
          have equal := Greedy.unique (SortLe.antisymm otherKeyFn)
            (greedy.congr same sameOrder) (exhausted.congr same) otherGreedy
            otherExhausted
          rw [equal]
          exact .ok otherSorted

end

variable {Id : Type} [LinearOrder Id]

/-! The one order in which the topological sort puts a graph. -/

/-- The greater power comes first, then the earlier timestamp, then the smaller
event id. -/
def Earlier (key : Id → Int × Nat) (left right : Id) : Prop :=
  (key right).1 < (key left).1 ∨ (key left).1 = (key right).1 ∧
    ((key left).2 < (key right).2 ∨ (key left).2 = (key right).2 ∧ left < right)

structure CanonicalOrder (graph : Graph Id) (key : Id → Int × Nat)
    (sorted : List Id) : Prop where
  perm : sorted.Perm graph.keys
  behind : ∀ before node after, sorted = before ++ node :: after →
    ∀ target ∈ edgesOf graph node, target ∈ before
  takes : ∀ before node after, sorted = before ++ node :: after →
    ∀ other, Ready graph.keys (edgesOf graph) before other → other ≠ node →
      Earlier key node other

section

variable {graph : Graph Id} {keyFn : KeyFn Id} {key : Id → Int × Nat}
  {sorted : List Id}

theorem earlier_iff {left right : Id} (leftKey : keyFn left = .ok (key left))
    (rightKey : keyFn right = .ok (key right)) :
    Earlier key left right ↔ sortKey keyFn left < sortKey keyFn right := by
  unfold Earlier sortKey
  rw [leftKey, rightKey]
  simp only [TieBreaker.key, Prod.Lex.toLex_lt_toLex,
    OrderDual.toDual_lt_toDual, OrderDual.toDual_inj]

theorem CanonicalOrder.nodup (canonical : CanonicalOrder graph key sorted) :
    sorted.Nodup :=
  canonical.perm.nodup_iff.mpr graph.nodupKeys

theorem CanonicalOrder.greedy
    (keyed : ∀ node ∈ graph.keys, keyFn node = .ok (key node))
    (canonical : CanonicalOrder graph key sorted) :
    Greedy (SortLe keyFn) graph.keys (edgesOf graph) sorted := by
  intro before node after split
  have known : node ∈ graph.keys := by
    apply canonical.perm.mem_iff.mp
    rw [split]
    simp
  have fresh : node ∉ before := by
    intro earlier
    have nodup := canonical.nodup
    rw [split, List.nodup_append] at nodup
    exact nodup.2.2 node earlier node List.mem_cons_self rfl
  refine ⟨⟨known, fresh, canonical.behind before node after split⟩, ?_⟩
  intro other ready
  by_cases same : other = node
  · rw [same]
    exact le_refl _
  · have earlier := canonical.takes before node after split other ready same
    exact ((earlier_iff (keyed node known) (keyed other ready.known)).mp
      earlier).le

theorem CanonicalOrder.exhausted (canonical : CanonicalOrder graph key sorted) :
    Exhausted graph.keys (edgesOf graph) sorted :=
  fun _ ready => ready.fresh (canonical.perm.mem_iff.mpr ready.known)

theorem canonicalOrder_of_greedy
    (keyed : ∀ node ∈ graph.keys, keyFn node = .ok (key node))
    (acyclic : Acyclic graph.keys (edgesOf graph))
    (closed : ∀ node ∈ graph.keys, ∀ target ∈ edgesOf graph node,
      target ∈ graph.keys)
    (greedy : Greedy (SortLe keyFn) graph.keys (edgesOf graph) sorted)
    (exhausted : Exhausted graph.keys (edgesOf graph) sorted) :
    CanonicalOrder graph key sorted := by
  have grounded := acyclic.all_grounded_iff_closed.mpr closed
  refine ⟨?_, greedy.topological, ?_⟩
  · refine (List.perm_ext_iff_of_nodup greedy.nodup graph.nodupKeys).mpr
      (fun node => ⟨greedy.mem_nodes, fun known => ?_⟩)
    exact (greedy.mem_iff_grounded exhausted node).mpr (grounded node known)
  · intro before node after split other ready differs
    obtain ⟨nodeReady, least⟩ := greedy before node after split
    refine (earlier_iff (keyed node nodeReady.known)
      (keyed other ready.known)).mpr (lt_of_le_of_ne (least other ready) ?_)
    intro same
    exact differs (SortLe.antisymm keyFn other node same.ge same.le)

end

/-- An acyclic graph that is closed under its edges has one canonical order.
The sort returns it for every iteration order of its hash maps, and fails only
where the key function fails on a node. -/
theorem lexicographicalTopologicalSort_canonical {graph : Graph Id}
    {keyFn : KeyFn Id} {order : List Id → List Id}
    (shuffled : ∀ list, (order list).Perm list)
    (acyclic : Acyclic graph.keys (edgesOf graph))
    (closed : ∀ node ∈ graph.keys, ∀ target ∈ edgesOf graph node,
      target ∈ graph.keys) :
    (∀ key : Id → Int × Nat,
      (∀ node ∈ graph.keys, keyFn node = .ok (key node)) →
      ∃ sorted, lexicographicalTopologicalSort graph keyFn order =
          .ok sorted ∧ CanonicalOrder graph key sorted ∧ sorted.Nodup ∧
        (∀ other, CanonicalOrder graph key other → other = sorted) ∧
        ∀ (twin : Graph Id) (twinOrder : List Id → List Id),
          (∀ list, (twinOrder list).Perm list) →
          SameGraph graph.keys twin.keys (edgesOf graph) (edgesOf twin) →
          lexicographicalTopologicalSort twin keyFn twinOrder = .ok sorted) ∧
    ∀ node ∈ graph.keys, ∀ failure, keyFn node = .error failure →
      ∃ other ∈ graph.keys, ∃ first, keyFn other = .error first ∧
        lexicographicalTopologicalSort graph keyFn order = .error first := by
  have settled := lexicographicalTopologicalSort_settles graph keyFn shuffled
  have grounded := acyclic.all_grounded_iff_closed.mpr closed
  constructor
  · intro key keyed
    obtain ⟨sorted, result, greedy, exhausted, _⟩ := settled.exists_ok (by
      intro failure failed
      obtain ⟨node, ⟨known, _⟩, failed⟩ := failed
      rw [keyed node known] at failed
      cases failed)
    have canonical :=
      canonicalOrder_of_greedy keyed acyclic closed greedy exhausted
    refine ⟨sorted, result, canonical, greedy.nodup, ?_, ?_⟩
    · intro other otherCanonical
      exact Greedy.unique (SortLe.antisymm keyFn)
        (otherCanonical.greedy keyed) otherCanonical.exhausted greedy
        exhausted
    · intro twin twinOrder twinShuffled same
      have agree : Agree (fun _ => True) _
          (lexicographicalTopologicalSort twin keyFn twinOrder) :=
        lexicographicalTopologicalSort_agree shuffled twinShuffled same
          (fun node _ => rfl)
      rw [result] at agree
      generalize lexicographicalTopologicalSort twin keyFn twinOrder =
        outcome at agree ⊢
      cases agree
      rfl
  · intro node known failure failed
    cases result : lexicographicalTopologicalSort graph keyFn order with
    | error first =>
        obtain ⟨other, ⟨otherKnown, _⟩, otherFailed⟩ := settled.of_error result
        exact ⟨other, otherKnown, first, otherFailed, rfl⟩
    | ok sorted =>
        obtain ⟨_, exhausted, keyed⟩ := settled.of_ok result
        obtain ⟨key, found⟩ := keyed node
          ((grounded node known).mem_of_exhausted exhausted)
        rw [failed] at found
        cases found

namespace FiveEvents

def graph : Graph Char :=
  collect [('l', ['o']), ('m', ['n', 'o']), ('n', ['o']), ('o', []),
    ('p', ['o'])]

def rank : Char → Nat
  | 'o' => 0
  | 'm' => 2
  | _ => 1

theorem graph_acyclic : Acyclic graph.keys (edgesOf graph) := by
  have checked : graph.keys.all (fun node => (edgesOf graph node).all
      fun target => rank target < rank node) := by decide +kernel
  exact .of_rank rank (by simpa using checked)

theorem graph_closed : ∀ node ∈ graph.keys, ∀ target ∈ edgesOf graph node,
      target ∈ graph.keys := by
  have checked : graph.keys.all (fun node => (edgesOf graph node).all
      fun target => target ∈ graph.keys) := by decide +kernel
  simpa using checked

theorem graph_sorted :
    lexicographicalTopologicalSort graph (fun _ => .ok (0, 0)) id =
        .ok ['o', 'l', 'n', 'm', 'p'] ∧
      CanonicalOrder graph (fun _ => (0, 0)) ['o', 'l', 'n', 'm', 'p'] := by
  have result : lexicographicalTopologicalSort graph (fun _ => .ok (0, 0)) id =
      .ok ['o', 'l', 'n', 'm', 'p'] := by decide +kernel
  have shuffled : ∀ list : List Char, (id list).Perm list :=
    fun list => .refl list
  obtain ⟨sorted, isSorted, canonical, _⟩ :=
    (lexicographicalTopologicalSort_canonical shuffled graph_acyclic
      graph_closed).1 (fun _ => (0, 0)) (fun _ _ => rfl)
  rw [result] at isSorted
  cases isSorted
  exact ⟨result, canonical⟩

end FiveEvents

end ArcanaServer.StateRes
