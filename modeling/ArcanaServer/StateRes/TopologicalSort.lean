import ArcanaServer.Library.GreedyOrder
import Mathlib.Data.List.AList
import Mathlib.Data.Prod.Lex
import Mathlib.Order.Compare
import Mathlib.Data.Int.Order.Basic

namespace ArcanaServer.StateRes

open Library

inductive Error where
  | serdeJson
  | unsupported (version : String)
  | notFound (message : String)
  | invalidPdu (message : String)
  deriving DecidableEq, Repr

/-- How a call of state resolution ends other than with a value. -/
inductive Failure where
  | error (error : Error)
  | panic (message : String)
  deriving DecidableEq, Repr

abbrev Outcome := Except Failure

variable {Id : Type} [LinearOrder Id]

structure TieBreaker (Id : Type) where
  powerLevel : Int
  originServerTs : Nat
  eventId : Id
  deriving DecidableEq

namespace TieBreaker

/-- The power level comparison is backwards on purpose: a higher level sorts
earlier. -/
def cmp (self other : TieBreaker Id) : Ordering :=
  (compare other.powerLevel self.powerLevel).then
    ((compare self.originServerTs other.originServerTs).then
      (compare self.eventId other.eventId))

def key (item : TieBreaker Id) : Intᵒᵈ ×ₗ Nat ×ₗ Id :=
  toLex (OrderDual.toDual item.powerLevel,
    toLex (item.originServerTs, item.eventId))

omit [LinearOrder Id] in
theorem key_injective :
    Function.Injective (fun item : TieBreaker Id => item.key) := by
  intro left right equal
  cases left
  cases right
  simpa [key] using equal

theorem cmp_eq_lt_iff (self other : TieBreaker Id) :
    self.cmp other = .lt ↔ self.key < other.key := by
  simp only [cmp, key, Ordering.then_eq_lt, compare_lt_iff_lt,
    compare_eq_iff_eq, Prod.Lex.toLex_lt_toLex]
  constructor
  · rintro (level | ⟨level, stamp⟩)
    · exact .inl level
    · exact .inr ⟨by simp [level], stamp⟩
  · rintro (level | ⟨level, stamp⟩)
    · exact .inl level
    · exact .inr ⟨by simpa using level.symm, stamp⟩

end TieBreaker

def heapLeast (first : TieBreaker Id) : List (TieBreaker Id) → TieBreaker Id
  | [] => first
  | next :: rest =>
      heapLeast (if next.cmp first = .lt then next else first) rest

def heapPop :
    List (TieBreaker Id) → Option (TieBreaker Id × List (TieBreaker Id))
  | [] => none
  | first :: rest =>
      let item := heapLeast first rest
      some (item, (first :: rest).erase item)

theorem heapLeast_mem (first : TieBreaker Id) (rest : List (TieBreaker Id)) :
    heapLeast first rest ∈ first :: rest := by
  induction rest generalizing first with
  | nil => simp [heapLeast]
  | cons next rest ih =>
      have member := ih (if next.cmp first = .lt then next else first)
      simp only [heapLeast]
      split at member <;> rename_i order
      · simp only [order, if_true]
        simp only [List.mem_cons] at member ⊢
        tauto
      · simp only [order, if_false]
        simp only [List.mem_cons] at member ⊢
        tauto

theorem heapLeast_le (first : TieBreaker Id) (rest : List (TieBreaker Id)) :
    ∀ item ∈ first :: rest, (heapLeast first rest).key ≤ item.key := by
  induction rest generalizing first with
  | nil =>
      intro item member
      have : item = first := by simpa using member
      simp [heapLeast, this]
  | cons next rest ih =>
      intro item member
      simp only [heapLeast]
      by_cases order : next.cmp first = .lt
      · have below : next.key < first.key :=
          (TieBreaker.cmp_eq_lt_iff next first).mp order
        simp only [order, if_true]
        rcases List.mem_cons.mp member with rfl | later
        · exact le_trans (ih next next (by simp)) below.le
        · exact ih next item later
      · have above : first.key ≤ next.key :=
          not_lt.mp (fun below =>
            order ((TieBreaker.cmp_eq_lt_iff next first).mpr below))
        simp only [order, if_false]
        rcases List.mem_cons.mp member with rfl | later
        · exact ih item item (by simp)
        · rcases List.mem_cons.mp later with rfl | later
          · exact le_trans (ih first first (by simp)) above
          · exact ih first item (List.mem_cons_of_mem _ later)

theorem heapPop_eq_some {heap rest : List (TieBreaker Id)}
    {item : TieBreaker Id} (popped : heapPop heap = some (item, rest)) :
    item ∈ heap ∧ rest = heap.erase item ∧
      ∀ other ∈ heap, item.key ≤ other.key := by
  cases heap with
  | nil => simp [heapPop] at popped
  | cons first others =>
      simp only [heapPop, Option.some.injEq, Prod.mk.injEq] at popped
      obtain ⟨itemEq, restEq⟩ := popped
      subst itemEq
      exact ⟨heapLeast_mem first others, restEq.symm, heapLeast_le first others⟩

theorem heapPop_eq_none {heap : List (TieBreaker Id)} :
    heapPop heap = none ↔ heap = [] := by
  cases heap <;> simp [heapPop]

/-- A `HashMap` from nodes to their edge sets; the list order is the iteration
order of the map. -/
abbrev Graph (Id : Type) := AList (fun _ : Id => List Id)

abbrev KeyFn (Id : Type) := Id → Outcome (Int × Nat)

def edgesOf (graph : Graph Id) (node : Id) : List Id :=
  (graph.lookup node).getD []

/-- `entry(key).or_default()`. -/
def entryOrDefault (map : Id → Option (List Id)) (key : Id) :
    Id → Option (List Id) :=
  Function.update map key (some ((map key).getD []))

/-- `entry(key).or_default().insert(value)`. -/
def entryInsert (map : Id → Option (List Id)) (key value : Id) :
    Id → Option (List Id) :=
  Function.update map key (some (((map key).getD []).insert value))

section

variable (keyFn : KeyFn Id) (node : Id)

def tieBreaker : Outcome (TieBreaker Id) := do
  let (powerLevel, originServerTs) ← keyFn node
  return { powerLevel, originServerTs, eventId := node }

def pushIfZero (edges : List Id) (heap : List (TieBreaker Id)) :
    Outcome (List (TieBreaker Id)) :=
  if edges.isEmpty then
    (tieBreaker keyFn node).map (fun item => heap ++ [item])
  else .ok heap

def addReferences (reverseGraph : Id → Option (List Id)) (node : Id)
    (edges : List Id) : Id → Option (List Id) :=
  edges.foldl (fun map edge => entryInsert map edge node)
    (entryOrDefault reverseGraph node)

structure Degrees (Id : Type) where
  reverseGraph : Id → Option (List Id)
  zeroOutdegree : List (TieBreaker Id)

def countNode (degrees : Degrees Id) (entry : (_ : Id) × List Id) :
    Outcome (Degrees Id) := do
  let zeroOutdegree ← pushIfZero keyFn entry.1 entry.2 degrees.zeroOutdegree
  return {
    reverseGraph := addReferences degrees.reverseGraph entry.1 entry.2
    zeroOutdegree }

structure SortState (Id : Type) where
  outdegreeMap : Id → Option (List Id)
  heap : List (TieBreaker Id)
  sorted : List Id

def clearEdge (state : SortState Id) (parent : Id) : Outcome (SortState Id) :=
  match state.outdegreeMap parent with
  | none =>
      .error (.panic "outdegree_map knows of all referenced EventIds")
  | some edges => do
      let out := edges.filter (· ≠ node)
      let heap ← pushIfZero keyFn parent out state.heap
      return { state with
        outdegreeMap := Function.update state.outdegreeMap parent (some out)
        heap }

end

/-- The `while let` over the heap.  A node enters the heap at most once, so
the number of nodes bounds the number of rounds. -/
def sortLoop (keyFn : KeyFn Id) (order : List Id → List Id)
    (reverseGraph : Id → Option (List Id)) :
    Nat → SortState Id → Outcome (SortState Id)
  | 0, state => .ok state
  | rounds + 1, state =>
      match heapPop state.heap with
      | none => .ok state
      | some (item, heap) =>
          match reverseGraph item.eventId with
          | none =>
              .error (.panic "EventId in heap is also in reverse_graph")
          | some parents => do
              let state ← (order parents).foldlM (clearEdge keyFn item.eventId)
                { state with heap }
              sortLoop keyFn order reverseGraph rounds
                { state with sorted := state.sorted ++ [item.eventId] }

/-- `order` is the iteration order of the hash sets of the reverse graph. -/
def lexicographicalTopologicalSort (graph : Graph Id) (keyFn : KeyFn Id)
    (order : List Id → List Id) : Outcome (List Id) := do
  let degrees ← graph.entries.foldlM (countNode keyFn)
    { reverseGraph := fun _ => none, zeroOutdegree := [] }
  let final ← sortLoop keyFn order degrees.reverseGraph graph.keys.length
    { outdegreeMap := graph.lookup
      heap := degrees.zeroOutdegree
      sorted := [] }
  return final.sorted

end ArcanaServer.StateRes
