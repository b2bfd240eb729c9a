import ArcanaServer.Library.Sequence
import Mathlib.Data.List.Basic
import Mathlib.Data.Set.Finite.List
import Mathlib.Logic.Relation
import Mathlib.Order.WellFounded

namespace ArcanaServer.Library

open List

variable {α : Type}

/-! Orders in which every node follows the nodes it points to.  A graph is a
list of nodes together with an edge list for each node; edges may leave the
node list. -/

/-- `node` may be emitted once every target of its edges has been emitted. -/
structure Ready (nodes : List α) (edges : α → List α) (done : List α)
    (node : α) : Prop where
  known : node ∈ nodes
  fresh : node ∉ done
  cleared : ∀ target ∈ edges node, target ∈ done

def Topological (edges : α → List α) (order : List α) : Prop :=
  ∀ before node after, order = before ++ node :: after →
    ∀ target ∈ edges node, target ∈ before

/-- Each emitted node is a least one among those that were ready. -/
def Greedy (le : α → α → Prop) (nodes : List α) (edges : α → List α)
    (order : List α) : Prop :=
  ∀ before node after, order = before ++ node :: after →
    Ready nodes edges before node ∧
      ∀ other, Ready nodes edges before other → le node other

def Exhausted (nodes : List α) (edges : α → List α) (order : List α) : Prop :=
  ∀ node, ¬ Ready nodes edges order node

/-- The nodes that can be emitted at all: the least set that contains a node
of the list whenever it contains all targets of its edges. -/
inductive Grounded (nodes : List α) (edges : α → List α) : α → Prop
  | intro (known : node ∈ nodes)
      (targets : ∀ target ∈ edges node, Grounded nodes edges target) :
      Grounded nodes edges node

section

variable {le : α → α → Prop} {nodes : List α} {edges : α → List α}

theorem Greedy.nil : Greedy le nodes edges [] := by
  intro before node after split
  simp at split

variable {order : List α}

theorem Greedy.snoc {node : α} (greedy : Greedy le nodes edges order)
    (ready : Ready nodes edges order node)
    (least : ∀ other, Ready nodes edges order other → le node other) :
    Greedy le nodes edges (order ++ [node]) := by
  intro before emitted after split
  rcases snoc_split split with ⟨_, rfl, rfl⟩ | ⟨rest, _, orderEq⟩
  · exact ⟨ready, least⟩
  · exact greedy before emitted rest orderEq

theorem Greedy.topological (greedy : Greedy le nodes edges order) :
    Topological edges order :=
  fun before node after split => (greedy before node after split).1.cleared

theorem Greedy.mem_nodes (greedy : Greedy le nodes edges order) {node : α}
    (member : node ∈ order) : node ∈ nodes := by
  obtain ⟨before, after, split⟩ := append_of_mem member
  exact (greedy before node after split).1.known

theorem Greedy.nodup (greedy : Greedy le nodes edges order) : order.Nodup := by
  induction order using reverseRecOn with
  | nil => exact nodup_nil
  | append_singleton order last ih =>
      have shorter : Greedy le nodes edges order := by
        intro before node after split
        exact greedy before node (after ++ [last]) (by simp [split])
      have fresh : last ∉ order := (greedy order last [] rfl).1.fresh
      rw [nodup_append]
      refine ⟨ih shorter, nodup_singleton last, ?_⟩
      intro left leftMember right rightMember equal
      have : right = last := by simpa using rightMember
      subst this
      exact fresh (equal ▸ leftMember)

end

variable {nodes : List α} {edges : α → List α}

theorem Topological.grounded {order : List α}
    (topological : Topological edges order)
    (known : ∀ node ∈ order, node ∈ nodes) :
    ∀ node ∈ order, Grounded nodes edges node := by
  induction order using reverseRecOn with
  | nil => intro node member; simp at member
  | append_singleton order last ih =>
      have shorter : Topological edges order := by
        intro before node after split
        exact topological before node (after ++ [last]) (by simp [split])
      have earlier := ih shorter (fun node member =>
        known node (mem_append_left _ member))
      intro node member
      rcases mem_append.mp member with old | new
      · exact earlier node old
      · have nodeEq : node = last := by simpa using new
        subst nodeEq
        refine .intro (known _ member) (fun target targetMember => ?_)
        exact earlier target (topological order node [] rfl target targetMember)

/-- Nothing ready is left exactly when every grounded node was emitted. -/
theorem Grounded.mem_of_exhausted {order : List α}
    (exhausted : Exhausted nodes edges order) {node : α}
    (grounded : Grounded nodes edges node) : node ∈ order := by
  induction grounded with
  | @intro node known _ ih =>
      by_contra fresh
      exact exhausted node ⟨known, fresh, ih⟩

theorem Greedy.mem_iff_grounded {le : α → α → Prop} {order : List α}
    (greedy : Greedy le nodes edges order)
    (exhausted : Exhausted nodes edges order) (node : α) :
    node ∈ order ↔ Grounded nodes edges node :=
  ⟨greedy.topological.grounded (fun _ member => greedy.mem_nodes member) node,
    Grounded.mem_of_exhausted exhausted⟩

private theorem Greedy.suffix_unique {le : α → α → Prop} {nodes : List α}
    {edges : α → List α} (antisymm : ∀ a b, le a b → le b a → a = b)
    (left : List α) : ∀ (common right : List α),
      Greedy le nodes edges (common ++ left) →
      Exhausted nodes edges (common ++ left) →
      Greedy le nodes edges (common ++ right) →
      Exhausted nodes edges (common ++ right) → left = right := by
  induction left with
  | nil =>
      intro common right _ exhausted greedy _
      cases right with
      | nil => rfl
      | cons node rest =>
          have ready := (greedy common node rest rfl).1
          exact absurd ready (by simpa using exhausted node)
  | cons node rest ih =>
      intro common right greedy exhausted greedy' exhausted'
      have leftReady := greedy common node rest rfl
      cases right with
      | nil => exact absurd leftReady.1 (by simpa using exhausted' node)
      | cons other rest' =>
          have rightReady := greedy' common other rest' rfl
          have same : node = other :=
            antisymm node other (leftReady.2 other rightReady.1)
              (rightReady.2 node leftReady.1)
          subst same
          have tails := ih (common ++ [node]) rest'
            (by simpa using greedy) (by simpa using exhausted)
            (by simpa using greedy') (by simpa using exhausted')
          rw [tails]

/-- There is at most one exhausted greedy order. -/
theorem Greedy.unique {le : α → α → Prop} {left right : List α}
    (antisymm : ∀ a b, le a b → le b a → a = b)
    (leftGreedy : Greedy le nodes edges left)
    (leftExhausted : Exhausted nodes edges left)
    (rightGreedy : Greedy le nodes edges right)
    (rightExhausted : Exhausted nodes edges right) : left = right :=
  Greedy.suffix_unique antisymm left [] right leftGreedy leftExhausted
    rightGreedy rightExhausted

structure SameGraph (nodes nodes' : List α) (edges edges' : α → List α) :
    Prop where
  known : ∀ node, node ∈ nodes ↔ node ∈ nodes'
  target : ∀ node ∈ nodes, ∀ target, target ∈ edges node ↔ target ∈ edges' node

section

variable {nodes nodes' : List α} {edges edges' : α → List α}

theorem SameGraph.symm (same : SameGraph nodes nodes' edges edges') :
    SameGraph nodes' nodes edges' edges :=
  ⟨fun node => (same.known node).symm, fun node known target =>
    (same.target node ((same.known node).mpr known) target).symm⟩

theorem Ready.congr (same : SameGraph nodes nodes' edges edges')
    {done : List α} {node : α} (ready : Ready nodes edges done node) :
    Ready nodes' edges' done node :=
  ⟨(same.known node).mp ready.known, ready.fresh, fun target edge =>
    ready.cleared target ((same.target node ready.known target).mpr edge)⟩

theorem Greedy.congr {le le' : α → α → Prop}
    (same : SameGraph nodes nodes' edges edges')
    (sameOrder : ∀ left ∈ nodes, ∀ right ∈ nodes,
      le left right → le' left right) {order : List α}
    (greedy : Greedy le nodes edges order) :
    Greedy le' nodes' edges' order := by
  intro before node after split
  obtain ⟨ready, least⟩ := greedy before node after split
  refine ⟨ready.congr same, fun other otherReady => ?_⟩
  have otherHere := otherReady.congr same.symm
  exact sameOrder node ready.known other otherHere.known (least other otherHere)

theorem Exhausted.congr (same : SameGraph nodes nodes' edges edges')
    {order : List α} (exhausted : Exhausted nodes edges order) :
    Exhausted nodes' edges' order :=
  fun node ready => exhausted node (ready.congr same.symm)

theorem Grounded.of_congr (same : SameGraph nodes nodes' edges edges')
    {node : α} (grounded : Grounded nodes edges node) :
    Grounded nodes' edges' node := by
  induction grounded with
  | @intro node known _ ih =>
      exact .intro ((same.known node).mp known) (fun target edge =>
        ih target ((same.target node known target).mpr edge))

theorem Grounded.congr (same : SameGraph nodes nodes' edges edges')
    (node : α) : Grounded nodes edges node ↔ Grounded nodes' edges' node :=
  ⟨Grounded.of_congr same, Grounded.of_congr same.symm⟩

end

def Inner (nodes : List α) (edges : α → List α) (node target : α) : Prop :=
  node ∈ nodes ∧ target ∈ nodes ∧ target ∈ edges node

def Acyclic (nodes : List α) (edges : α → List α) : Prop :=
  ∀ node, ¬ Relation.TransGen (Inner nodes edges) node node

variable {nodes : List α} {edges : α → List α}

theorem Acyclic.of_rank (rank : α → Nat)
    (descends : ∀ node ∈ nodes, ∀ target ∈ edges node,
      rank target < rank node) : Acyclic nodes edges := by
  have below : ∀ node target,
      Relation.TransGen (Inner nodes edges) node target →
        rank target < rank node := by
    intro node target path
    induction path with
    | single inner => exact descends _ inner.1 _ inner.2.2
    | tail _ inner ih => exact (descends _ inner.1 _ inner.2.2).trans ih
  intro node cycle
  exact (below node node cycle).false

theorem Acyclic.wellFounded (acyclic : Acyclic nodes edges) :
    WellFounded (fun target node : α => Inner nodes edges node target) := by
  classical
  -- Inside the node list the transitive closure is a strict order on a
  -- finite type; outside it a node has no inner edge at all.
  let later : {node // node ∈ nodes} → {node // node ∈ nodes} → Prop :=
    fun target node => Relation.TransGen (Inner nodes edges) node.1 target.1
  have : IsTrans {node // node ∈ nodes} later :=
    ⟨fun _ _ _ first second => second.trans first⟩
  have : Std.Irrefl later := ⟨fun node cycle => acyclic node.1 cycle⟩
  have : Finite {node // node ∈ nodes} := finite_toSet nodes
  have wf : WellFounded later := Finite.wellFounded_of_trans_of_irrefl later
  refine ⟨fun node => ⟨node, fun target inner => ?_⟩⟩
  have key : ∀ inside : {node // node ∈ nodes},
      Acc (fun target node : α => Inner nodes edges node target) inside.1 := by
    intro inside
    induction inside using wf.induction with
    | _ inside ih =>
        refine ⟨inside.1, fun target inner => ?_⟩
        exact ih ⟨target, inner.2.1⟩ (Relation.TransGen.single inner)
  exact key ⟨target, inner.2.1⟩

/-- In an acyclic graph that is closed under its edges every node can be
emitted; an edge that leaves the node list blocks its source. -/
theorem Acyclic.all_grounded_iff_closed (acyclic : Acyclic nodes edges) :
    (∀ node ∈ nodes, Grounded nodes edges node) ↔
      ∀ node ∈ nodes, ∀ target ∈ edges node, target ∈ nodes := by
  constructor
  · intro grounded node member target edge
    cases grounded node member with
    | intro _ targets =>
        cases targets target edge with
        | intro known _ => exact known
  · intro closed node
    induction node using acyclic.wellFounded.induction with
    | _ node ih =>
        intro member
        refine .intro member (fun target edge => ?_)
        have known := closed node member target edge
        exact ih target ⟨member, known, edge⟩ known

/-- A node rests on itself and on all that the targets of its edges rest on. -/
def RestsOn (edges : α → List α) : α → α → Prop :=
  Relation.ReflTransGen (fun node target => target ∈ edges node)

theorem Grounded.iff_acc
    (closed : ∀ node ∈ nodes, ∀ target ∈ edges node, target ∈ nodes) {node : α} :
    Grounded nodes edges node ↔
      node ∈ nodes ∧ Acc (fun target node => target ∈ edges node) node := by
  constructor
  · intro grounded
    induction grounded with
    | @intro node known _ ih =>
        exact ⟨known, .intro node fun target edge => (ih target edge).2⟩
  · intro wellFounded
    obtain ⟨known, acc⟩ := wellFounded
    induction acc with
    | intro node _ ih =>
        exact .intro known fun target edge =>
          ih target edge (closed node known target edge)

theorem Topological.mem_of_restsOn {order : List α}
    (topological : Topological edges order) {before after : List α}
    {node target : α} (split : order = before ++ node :: after)
    (rests : RestsOn edges node target) : target = node ∨ target ∈ before := by
  induction rests with
  | refl => exact .inl rfl
  | @tail middle target _ edge ih =>
      right
      rcases ih with same | earlier
      · rw [same] at edge
        exact topological before node after split target edge
      · obtain ⟨first, second, rfl⟩ := append_of_mem earlier
        have inside := topological first middle (second ++ node :: after)
          (by simpa using split) target edge
        exact mem_append_left _ inside

/-- Against a node without edges, another one comes first if and only if it can
be emitted and nothing that it rests on ranks behind the node. -/
theorem Greedy.mem_before_iff {le : α → α → Prop} {order before after : List α}
    {node : α} (antisymm : ∀ a b, le a b → le b a → a = b)
    (greedy : Greedy le nodes edges order)
    (split : order = before ++ node :: after) (free : edges node = [])
    (other : α) :
    other ∈ before ↔ Grounded nodes edges other ∧
      ∀ target, RestsOn edges other target → ¬ le node target := by
  have nodup := greedy.nodup
  rw [split, nodup_append] at nodup
  have apart : ∀ earlier ∈ before, earlier ≠ node := by
    intro earlier member same
    exact nodup.2.2 earlier member node mem_cons_self same
  have isReady : ∀ done, node ∉ done → Ready nodes edges done node := by
    intro done fresh
    refine ⟨(greedy before node after split).1.known, fresh, ?_⟩
    intro target edge
    rw [free] at edge
    cases edge
  constructor
  · intro member
    have inside : other ∈ order := by
      rw [split]
      exact mem_append_left _ member
    refine ⟨greedy.topological.grounded (fun _ => greedy.mem_nodes) other
      inside, ?_⟩
    intro target rests ranked
    have targetBefore : target ∈ before := by
      obtain ⟨first, second, rfl⟩ := append_of_mem member
      cases greedy.topological.mem_of_restsOn
          (show order = first ++ other :: (second ++ node :: after) by
            simpa using split) rests with
      | inl same =>
          rw [same]
          exact member
      | inr earlier => exact mem_append_left _ earlier
    obtain ⟨first, second, rfl⟩ := append_of_mem targetBefore
    have least := (greedy first target (second ++ node :: after)
      (by simpa using split)).2 node (isReady first (fun known =>
        apart node (mem_append_left _ known) rfl))
    exact apart target targetBefore (antisymm target node least ranked)
  · intro condition
    obtain ⟨grounded, ranked⟩ := condition
    induction grounded with
    | @intro other known _ ih =>
        have targets : ∀ target ∈ edges other, target ∈ before := by
          intro target edge
          apply ih target edge
          intro reached rests
          exact ranked reached (.head edge rests)
        by_contra missing
        exact ranked other .refl ((greedy before node after split).2 other
          ⟨known, missing, targets⟩)

end ArcanaServer.Library
