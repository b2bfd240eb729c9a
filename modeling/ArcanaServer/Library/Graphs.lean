import Mathlib.Data.List.Chain
import Mathlib.Data.List.Nodup
import Mathlib.Data.List.Perm.Basic
import Mathlib.Data.Option.Basic
import Mathlib.Data.Set.Basic
import Mathlib.Logic.Relation

namespace ArcanaServer.Library

open Relation List

variable {ι : Type}

/-! What a graph leads to from a set of nodes, and how that changes when the
graph grows. -/

def Step (next : ι → List ι) (node target : ι) : Prop := target ∈ next node

def descendants (next : ι → List ι) (starts : Set ι) : Set ι :=
  { node | ∃ start ∈ starts, TransGen (Step next) start node }

def visited (next : ι → List ι) (starts : Set ι) : Set ι :=
  { node | ∃ start ∈ starts, ReflTransGen (Step next) start node }

section

variable {next other : ι → List ι} {starts : Set ι} {node : ι}

theorem mem_visited : node ∈ visited next starts ↔
      node ∈ starts ∨ node ∈ descendants next starts := by
  constructor
  · rintro ⟨start, begins, path⟩
    rcases reflTransGen_iff_eq_or_transGen.mp path with same | path
    · exact .inl (same ▸ begins)
    · exact .inr ⟨start, begins, path⟩
  · rintro (begins | ⟨start, begins, path⟩)
    · exact ⟨node, begins, .refl⟩
    · exact ⟨start, begins, path.to_reflTransGen⟩

theorem descendants_step {target : ι} (passed : node ∈ visited next starts)
    (step : target ∈ next node) : target ∈ descendants next starts := by
  obtain ⟨start, begins, path⟩ := passed
  exact ⟨start, begins, TransGen.tail' path step⟩

theorem descendants_subset (holds : ι → Prop)
    (first : ∀ start ∈ starts, ∀ target ∈ next start, holds target)
    (later : ∀ node, holds node → ∀ target ∈ next node, holds target)
    (inside : node ∈ descendants next starts) : holds node := by
  obtain ⟨start, begins, path⟩ := inside
  induction path with
  | single step => exact first start begins _ step
  | tail _ step ih => exact later _ ih _ step

theorem descendants_congr
    (same : ∀ node ∈ visited next starts, other node = next node) :
    descendants other starts = descendants next starts := by
  ext node
  constructor
  · rintro ⟨start, begins, path⟩
    refine ⟨start, begins, ?_⟩
    induction path with
    | single step =>
        have kept := same start ⟨start, begins, .refl⟩
        exact .single (show _ ∈ next start from kept ▸ step)
    | tail _ step ih =>
        have kept := same _ ⟨start, begins, ih.to_reflTransGen⟩
        exact .tail ih (show _ ∈ next _ from kept ▸ step)
  · rintro ⟨start, begins, path⟩
    refine ⟨start, begins, ?_⟩
    induction path with
    | single step =>
        have kept := same start ⟨start, begins, .refl⟩
        exact .single (show _ ∈ other start from kept.symm ▸ step)
    | tail path step ih =>
        have kept := same _ ⟨start, begins, path.to_reflTransGen⟩
        exact .tail ih (show _ ∈ other _ from kept.symm ▸ step)

end

section

variable (next : ι → List ι)

/-- The walks of at least one and at most so many steps, without their
start. -/
def walks : Nat → ι → List (List ι)
  | 0, _ => []
  | steps + 1, start => (next start).flatMap (fun node =>
      [node] :: (walks steps node).map (fun walk => node :: walk))

def walkEnds : Nat → ι → List ι
  | 0, _ => []
  | steps + 1, start => (next start).flatMap (fun node =>
      node :: walkEnds steps node)

variable {next} {steps : Nat} {start : ι}

theorem mem_walks {walk : List ι} : walk ∈ walks next steps start ↔
    walk ≠ [] ∧ walk.length ≤ steps ∧ (start :: walk).IsChain (Step next) := by
  induction steps generalizing start walk with
  | zero =>
      refine iff_of_false not_mem_nil ?_
      rintro ⟨some, short, _⟩
      exact some (length_eq_zero_iff.mp (Nat.le_zero.mp short))
  | succ steps ih =>
      cases walk with
      | nil => simp [walks]
      | cons node rest =>
          rw [walks, mem_flatMap, isChain_cons_cons]
          simp only [mem_cons, List.cons.injEq, mem_map, ih,
            length_cons, Nat.add_le_add_iff_right, ne_eq, reduceCtorEq,
            not_false_eq_true, true_and]
          constructor
          · rintro ⟨first, step, ⟨rfl, rfl⟩ | ⟨behind, ⟨_, short, chain⟩, rfl,
              rfl⟩⟩
            · exact ⟨Nat.zero_le _, step, isChain_singleton _⟩
            · exact ⟨short, step, chain⟩
          · rintro ⟨short, step, chain⟩
            refine ⟨node, step, ?_⟩
            cases rest with
            | nil => exact .inl ⟨rfl, rfl⟩
            | cons second rest =>
                exact .inr ⟨_, ⟨cons_ne_nil _ _, short, chain⟩, rfl, rfl⟩

theorem nodup_walks (nodup : ∀ node, (next node).Nodup) :
    (walks next steps start).Nodup := by
  induction steps generalizing start with
  | zero => exact nodup_nil
  | succ steps ih =>
      rw [walks, nodup_flatMap]
      refine ⟨fun node _ => ?_, (nodup start).imp fun {node other} differ => ?_⟩
      · refine nodup_cons.mpr ⟨?_, ih.map (cons_injective)⟩
        intro member
        obtain ⟨walk, inside, same⟩ := mem_map.mp member
        rw [tail_eq_of_cons_eq same] at inside
        exact (mem_walks.mp inside).1 rfl
      · intro walk here there
        have head {first : ι} (member : walk ∈ [first] ::
            (walks next steps first).map (fun walk => first :: walk)) :
            walk.head? = some first := by
          rcases mem_cons.mp member with rfl | behind
          · rfl
          · obtain ⟨rest, _, rfl⟩ := mem_map.mp behind
            rfl
        exact differ (Option.some.inj ((head here).symm.trans (head there)))

theorem map_some_walkEnds : (walkEnds next steps start).map some =
    (walks next steps start).map getLast? := by
  induction steps generalizing start with
  | zero => rfl
  | succ steps ih =>
      rw [walkEnds, walks, map_flatMap, map_flatMap]
      refine flatMap_congr fun node _ => ?_
      rw [List.map_cons, List.map_cons, ih, List.map_map]
      refine congrArg (some node :: ·) (List.map_congr_left fun walk inside => ?_)
      cases walk with
      | nil => exact absurd rfl (mem_walks.mp inside).1
      | cons second rest => rfl

theorem mem_walkEnds {node : ι} : node ∈ walkEnds next steps start ↔
    ∃ walk ∈ walks next steps start, walk.getLast? = some node := by
  rw [← mem_map, ← map_some_walkEnds,
    mem_map_of_injective (Option.some_injective ι)]

theorem exists_step_of_mem_walkEnds {node : ι}
    (reached : node ∈ walkEnds next steps start) :
    ∃ before, node ∈ next before := by
  induction steps generalizing start with
  | zero => cases reached
  | succ steps ih =>
      obtain ⟨first, step, inside⟩ := mem_flatMap.mp reached
      rcases mem_cons.mp inside with rfl | behind
      · exact ⟨start, step⟩
      · exact ih behind

theorem nodup_walkEnds_iff (nodup : ∀ node, (next node).Nodup) :
    (walkEnds next steps start).Nodup ↔
      ∀ walk ∈ walks next steps start, ∀ other ∈ walks next steps start,
        walk.getLast? = other.getLast? → walk = other := by
  rw [← nodup_map_iff (Option.some_injective ι), map_some_walkEnds]
  constructor
  · exact inj_on_of_nodup_map
  · exact fun distinct => (nodup_walks nodup).map_on distinct

end

section

variable {α : Type} (ident : α → ι) (refs : α → List ι)

def frontier (nodes : List α) : Set ι :=
  { id | (∃ node ∈ nodes, ident node = id) ∧ ∀ node ∈ nodes, id ∉ refs node }

variable {ident refs}

theorem mem_frontier {nodes : List α} {id : ι} :
    id ∈ frontier ident refs nodes ↔
      (∃ node ∈ nodes, ident node = id) ∧ ∀ node ∈ nodes, id ∉ refs node :=
  Iff.rfl

theorem unlisted_append {nodes : List α} {new : α} {id : ι} :
    (∀ node ∈ nodes ++ [new], id ∉ refs node) ↔
      (∀ node ∈ nodes, id ∉ refs node) ∧ id ∉ refs new := by
  simp only [mem_append, mem_singleton, or_imp, forall_and, forall_eq]

/-- A new node that nothing points to takes the place of the nodes that it
points to. -/
theorem mem_frontier_append {nodes : List α} {new : α}
    (unlisted : ∀ node ∈ nodes, ident new ∉ refs node)
    (proper : ident new ∉ refs new) {id : ι} :
    id ∈ frontier ident refs (nodes ++ [new]) ↔
      (id ∈ frontier ident refs nodes ∧ id ∉ refs new) ∨ id = ident new := by
  rw [mem_frontier, mem_frontier, unlisted_append]
  constructor
  · rintro ⟨⟨node, member, rfl⟩, earlier, outside⟩
    rcases mem_append.mp member with old | isNew
    · exact .inl ⟨⟨⟨node, old, rfl⟩, earlier⟩, outside⟩
    · exact .inr (by rw [mem_singleton.mp isNew])
  · rintro (⟨⟨⟨node, member, isNode⟩, earlier⟩, outside⟩ | rfl)
    · exact ⟨⟨node, mem_append_left _ member, isNode⟩, earlier, outside⟩
    · exact ⟨⟨new, mem_append_right _ (mem_singleton_self new), rfl⟩,
        unlisted, proper⟩

end

end ArcanaServer.Library
