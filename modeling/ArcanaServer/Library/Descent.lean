import Mathlib.Algebra.BigOperators.Group.Finset.Basic
import Mathlib.Algebra.Order.BigOperators.Group.List
import Mathlib.Algebra.Order.Group.Nat
import Mathlib.Logic.Relation
import Mathlib.Order.WellFounded
import Mathlib.Algebra.GroupWithZero.Nat

namespace ArcanaServer.Library

open Relation

variable {α : Type}

/-! Graphs in which a node points to finitely many others and no path goes on
for ever. -/

def load (weight : α → Nat) (nodes : List α) : Nat := (nodes.map weight).sum

section

variable (weight : α → Nat)
include weight

@[simp]
theorem load_nil : load weight [] = 0 := rfl

@[simp]
theorem load_cons (node : α) (nodes : List α) :
    load weight (node :: nodes) = weight node + load weight nodes := by
  simp [load]

@[simp]
theorem load_append (left right : List α) :
    load weight (left ++ right) = load weight left + load weight right := by
  simp [load]

theorem load_perm {left right : List α} (perm : left.Perm right) :
    load weight left = load weight right :=
  (perm.map weight).sum_eq

theorem load_sublist {left right : List α} (sublist : left.Sublist right) :
    load weight left ≤ load weight right :=
  (sublist.map weight).sum_le_sum (fun _ _ => Nat.zero_le _)

theorem load_subset {left right : List α} (nodup : left.Nodup)
    (subset : left ⊆ right) :
    load weight left ≤ load weight right := by
  obtain ⟨middle, perm, sublist⟩ := List.subperm_of_subset nodup subset
  rw [← load_perm weight perm]
  exact load_sublist weight sublist

theorem weight_le_load {node : α} {nodes : List α} (member : node ∈ nodes) :
    weight node ≤ load weight nodes := by
  have single := load_sublist weight (List.singleton_sublist.mpr member)
  simpa using single

end

/-- Every node is heavier than the nodes it points to are together, so that a
walk that goes from a node to those grows lighter with each step. -/
def Weighs (edges : α → List α) (weight : α → Nat) : Prop :=
  ∀ node, load weight (edges node) < weight node

theorem exists_weight {edges : α → List α}
    (descends : WellFounded (fun target node => target ∈ edges node)) :
    ∃ weight, Weighs edges weight := by
  let weigh : (node : α) → ((target : α) → target ∈ edges node → Nat) → Nat :=
    fun node below =>
      1 + ((edges node).attach.map (fun target => below target.1 target.2)).sum
  refine ⟨descends.fix weigh, fun node => ?_⟩
  have total : descends.fix weigh node =
      1 + load (descends.fix weigh) (edges node) := by
    rw [WellFounded.fix_eq]
    simp [weigh, load]
  omega

section

variable {edges : α → List α} {weight : α → Nat}

theorem Weighs.descends (weighs : Weighs edges weight) {node target : α}
    (edge : target ∈ edges node) : weight target < weight node :=
  Nat.lt_of_le_of_lt (weight_le_load weight edge) (weighs node)

theorem Weighs.le_of_path (weighs : Weighs edges weight) {edge : α → α → Prop}
    (listed : ∀ node target, edge node target → target ∈ edges node)
    {node target : α} (path : ReflTransGen edge node target) :
    weight target ≤ weight node := by
  induction path with
  | refl => exact Nat.le_refl _
  | tail _ step ih =>
      exact (weighs.descends (listed _ _ step)).le.trans ih

end

theorem not_transGen_self {edge : α → α → Prop}
    (descends : WellFounded (fun target node => edge node target))
    (node : α) : ¬ TransGen edge node node := by
  intro cycle
  have swapped : TransGen (fun target node => edge node target) node node :=
    transGen_swap.mpr cycle
  exact descends.transGen.irrefl.irrefl node swapped

section

variable [DecidableEq α] {weight : α → Nat} {nodes : Finset α}
  {marked : List α} {node : α}

/-- What the nodes weigh together that are not marked yet. -/
def unmarked (weight : α → Nat) (nodes : Finset α) (marked : List α) : Nat :=
  (nodes.filter (· ∉ marked)).sum weight

theorem unmarked_mark (member : node ∈ nodes) (fresh : node ∉ marked) :
    weight node + unmarked weight nodes (node :: marked) =
      unmarked weight nodes marked := by
  have rest : nodes.filter (· ∉ node :: marked) =
      (nodes.filter (· ∉ marked)).erase node := by
    ext other
    simp only [Finset.mem_filter, Finset.mem_erase, List.mem_cons, not_or]
    tauto
  unfold unmarked
  rw [rest]
  exact Finset.add_sum_erase _ weight (Finset.mem_filter.mpr ⟨member, fresh⟩)

end

end ArcanaServer.Library
