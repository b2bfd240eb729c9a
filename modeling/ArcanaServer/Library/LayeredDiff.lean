import Mathlib.Data.Finset.SDiff
import Mathlib.Data.Finset.Lattice.Basic
import Mathlib.Tactic.Tauto

namespace ArcanaServer.Library

open Finset

variable {α : Type} [DecidableEq α]

/-! Finite sets stored as differences to other sets. -/

structure Diff (α : Type) where
  added : Finset α
  removed : Finset α

namespace Diff

def apply (diff : Diff α) (base : Finset α) : Finset α :=
  (base ∪ diff.added) \ diff.removed

/-- The difference names nothing that it does not change. -/
structure Exact (diff : Diff α) (base : Finset α) : Prop where
  fresh : ∀ item ∈ diff.added, item ∉ base
  present : ∀ item ∈ diff.removed, item ∈ base

def between (base goal : Finset α) : Diff α where
  added := goal \ base
  removed := base \ goal

theorem apply_between (base goal : Finset α) :
    (between base goal).apply base = goal := by
  ext item
  simp only [apply, between, mem_sdiff, mem_union]
  tauto

theorem between_exact (base goal : Finset α) :
    (between base goal).Exact base := by
  constructor
  · intro item member
    exact (mem_sdiff.mp member).2
  · intro item member
    exact (mem_sdiff.mp member).1

def squash (parent diff : Diff α) : Diff α where
  added := (parent.added \ diff.removed) ∪
    (diff.added \ (parent.removed ∪ (diff.removed \ parent.added)))
  removed := (parent.removed ∪ (diff.removed \ parent.added)) \ diff.added

section

variable {parent diff : Diff α} {base : Finset α}

theorem squash_exact (below : parent.Exact base)
    (above : diff.Exact (parent.apply base)) :
    (parent.squash diff).Exact base := by
  constructor
  · intro item member
    have old := below.fresh item
    have new := above.fresh item
    simp only [squash, apply, mem_union, mem_sdiff] at member new
    tauto
  · intro item member
    have old := below.present item
    have new := above.present item
    simp only [squash, apply, mem_union, mem_sdiff] at member new
    tauto

theorem apply_squash (below : parent.Exact base)
    (above : diff.Exact (parent.apply base)) :
    (parent.squash diff).apply base = diff.apply (parent.apply base) := by
  ext item
  have oldFresh := below.fresh item
  have oldPresent := below.present item
  have newFresh := above.fresh item
  have newPresent := above.present item
  simp only [squash, apply, mem_union, mem_sdiff]
    at newFresh newPresent ⊢
  tauto

end

theorem Exact.added_subset_apply {diff : Diff α} {base : Finset α}
    (exact : diff.Exact base) : diff.added ⊆ diff.apply base := by
  intro item member
  refine mem_sdiff.mpr ⟨mem_union_right _ member, ?_⟩
  intro removed
  exact exact.fresh item member (exact.present item removed)

omit [DecidableEq α] in
theorem Exact.removed_eq_empty {diff : Diff α} (exact : diff.Exact ∅) :
    diff.removed = ∅ := by
  apply eq_empty_of_forall_notMem
  intro item member
  exact notMem_empty item (exact.present item member)

theorem Exact.apply_empty {diff : Diff α} (exact : diff.Exact ∅) :
    diff.apply ∅ = diff.added := by
  simp [apply, exact.removed_eq_empty]

end Diff

end ArcanaServer.Library
