import ArcanaServer.Library.EntryTable
import Mathlib.Data.List.Perm.Basic

namespace ArcanaServer.Library

open List

variable {α β : Type}

/-! Lists in a strict order: two of them with the same elements are equal, and
two selections from one list are if one of them is a part of the other. -/

theorem eq_of_ordered_of_mem_iff {before : α → α → Prop}
    (irreflexive : ∀ one, ¬ before one one)
    (asymmetric : ∀ one other, before one other → ¬ before other one)
    {left right : List α} (leftOrdered : left.Pairwise before)
    (rightOrdered : right.Pairwise before)
    (same : ∀ one, one ∈ left ↔ one ∈ right) : left = right := by
  have nodup : ∀ {list : List α}, list.Pairwise before → list.Nodup := by
    intro list ordered
    refine ordered.imp fun {one other} isBefore equal => ?_
    exact irreflexive one (by rwa [← equal] at isBefore)
  have perm : left.Perm right := (perm_ext_iff_of_nodup
    (nodup leftOrdered) (nodup rightOrdered)).mpr same
  refine perm.eq_of_pairwise ?_ leftOrdered rightOrdered
  intro one other _ _ isBefore isAfter
  exact absurd isAfter (asymmetric one other isBefore)

theorem map_filter_eq_iff {items : List α} {given wanted : α → Bool}
    (make : α → β)
    (nested : (∀ item ∈ items, given item = true → wanted item = true) ∨
      ∀ item ∈ items, wanted item = true → given item = true) :
    (items.filter given).map make = (items.filter wanted).map make ↔
      ∀ item ∈ items, (given item = true ↔ wanted item = true) := by
  constructor
  · intro same
    have counts : items.countP given = items.countP wanted := by
      have lengths := congrArg length same
      rw [length_map, length_map] at lengths
      rw [countP_eq_length_filter, countP_eq_length_filter]
      exact lengths
    rcases nested with narrower | wider
    · have back := (countP_eq_countP_iff narrower).mp counts.symm
      exact fun item member => ⟨narrower item member, back item member⟩
    · have back := (countP_eq_countP_iff wider).mp counts
      exact fun item member => ⟨back item member, wider item member⟩
  · intro same
    rw [filter_congr (fun item member =>
      Bool.eq_iff_iff.mpr (same item member))]

/-- A scan that reads the rows it selects, against a selection among what the
rows hold. -/
theorem map_filter_eq_map_filter_filterMap {ρ γ : Type} {rows : List ρ}
    {select : ρ → Bool} {read : ρ → γ} {hold : ρ → Option α}
    {wanted : α → Bool} {make : α → γ}
    (selected : ∀ row ∈ rows, select row = true →
      ∃ item, hold row = some item ∧ wanted item = true ∧ read row = make item)
    (passed : ∀ row ∈ rows, select row = false →
      ∀ item, hold row = some item → wanted item = false) :
    (rows.filter select).map read =
      ((rows.filterMap hold).filter wanted).map make := by
  induction rows with
  | nil => rfl
  | cons row rest ih =>
      have tail := ih
        (fun other member => selected other (mem_cons_of_mem _ member))
        (fun other member => passed other (mem_cons_of_mem _ member))
      cases isSelected : select row with
      | true =>
          obtain ⟨item, holds, isWanted, reads⟩ :=
            selected row mem_cons_self isSelected
          rw [filter_cons_of_pos isSelected,
            filterMap_cons_some holds, filter_cons_of_pos isWanted,
            map_cons, map_cons, reads, tail]
      | false =>
          rw [filter_cons_of_neg (by simp [isSelected])]
          cases holds : hold row with
          | none => rw [filterMap_cons_none holds, tail]
          | some item =>
              have unwanted := passed row mem_cons_self isSelected item holds
              rw [filterMap_cons_some holds,
                filter_cons_of_neg (by simp [unwanted]), tail]

theorem takeWhile_filterMap_of_reads {ρ : Type} {rows : List ρ}
    {read : ρ → Option α} {within : α → Bool} {begins : ρ → Bool}
    (reads : ∀ row ∈ rows, ∃ item, read row = some item ∧
      within item = begins row) :
    (rows.filterMap read).takeWhile within =
      (rows.takeWhile begins).filterMap read := by
  induction rows with
  | nil => rfl
  | cons row rest ih =>
      obtain ⟨item, isItem, same⟩ := reads row mem_cons_self
      have tail := ih
        (fun other member => reads other (mem_cons_of_mem _ member))
      rw [filterMap_cons_some isItem, takeWhile_cons, takeWhile_cons, same]
      split
      · rw [filterMap_cons_some isItem, tail]
      · rfl

/-- The head of a list in a strict order is what stands before all others. -/
theorem head?_eq_some_iff_of_pairwise {before : α → α → Prop}
    (asymmetric : ∀ one other, before one other → ¬ before other one)
    {list : List α} (ordered : list.Pairwise before) {first : α} :
    list.head? = some first ↔
      first ∈ list ∧ ∀ other ∈ list, other ≠ first → before first other := by
  cases list with
  | nil => simp
  | cons head tail =>
      obtain ⟨least, _⟩ := pairwise_cons.mp ordered
      rw [List.head?_cons, Option.some.injEq]
      constructor
      · intro same
        subst same
        refine ⟨mem_cons_self, ?_⟩
        intro other member differs
        rcases mem_cons.mp member with here | later
        · exact absurd here differs
        · exact least other later
      · intro leading
        obtain ⟨member, leads⟩ := leading
        by_contra differs
        rcases mem_cons.mp member with here | later
        · exact differs here.symm
        · exact asymmetric head first (least first later)
            (leads head mem_cons_self differs)

end ArcanaServer.Library
