import Mathlib.Data.List.Basic
import Mathlib.Data.List.Induction

namespace ArcanaServer.Library

open List

variable {α : Type}

theorem snoc_split {order before after : List α} {last node : α}
    (split : order ++ [last] = before ++ node :: after) :
    (after = [] ∧ before = order ∧ node = last) ∨
      ∃ rest, after = rest ++ [last] ∧ order = before ++ node :: rest := by
  rcases eq_nil_or_concat after with rfl | ⟨rest, final, rfl⟩
  · left
    obtain ⟨sameOrder, sameLast⟩ := append_inj' split rfl
    exact ⟨rfl, sameOrder.symm, by simpa using sameLast.symm⟩
  · right
    have regrouped : order ++ [last] = (before ++ node :: rest) ++ [final] := by
      simpa using split
    obtain ⟨sameOrder, sameLast⟩ := append_inj' regrouped rfl
    have finalEq : final = last := by simpa using sameLast.symm
    exact ⟨rest, by simp [finalEq], sameOrder⟩

theorem forall_mem_snoc {holds : α → Prop} {list : List α} {last : α}
    (earlier : ∀ member ∈ list, holds member) (final : holds last) :
    ∀ member ∈ list ++ [last], holds member :=
  forall_mem_append.mpr ⟨earlier, forall_mem_singleton.mpr final⟩

theorem eq_of_mem_of_length_le_one {list : List α} {left right : α}
    (short : list.length ≤ 1) (leftMember : left ∈ list)
    (rightMember : right ∈ list) : left = right := by
  cases list with
  | nil => cases leftMember
  | cons head tail =>
      have empty : tail = [] := by simpa using short
      subst empty
      rw [mem_singleton.mp leftMember, mem_singleton.mp rightMember]

/-- What a fold establishes, when every step keeps it or establishes it from
its own element. -/
theorem foldl_iff {σ : Type} (holds : σ → Prop) (adds : α → Prop)
    {step : σ → α → σ} (each : ∀ state value, holds (step state value) ↔
      holds state ∨ adds value) (values : List α) :
    ∀ state, holds (values.foldl step state) ↔
      holds state ∨ ∃ value ∈ values, adds value := by
  induction values with
  | nil => simp
  | cons head tail ih =>
      intro state
      rw [foldl_cons, ih, each, or_assoc, exists_mem_cons_iff]

/-- The first elements all pass exactly if everything does or enough pass
before one does not. -/
theorem forall_take_iff (passes : α → Bool) (list : List α) :
    ∀ limit, (∀ value ∈ list.take limit, passes value = true) ↔
      (∀ value ∈ list, passes value = true) ∨
        limit ≤ (list.takeWhile passes).length := by
  induction list with
  | nil => simp
  | cons head tail ih =>
      intro limit
      cases limit with
      | zero => simp
      | succ limit =>
          cases isHead : passes head with
          | true =>
              rw [take_succ_cons, forall_mem_cons,
                takeWhile_cons_of_pos isHead, length_cons,
                Nat.succ_le_succ_iff, forall_mem_cons, ih]
              simp [isHead]
          | false =>
              rw [takeWhile_cons_of_neg (by simp [isHead])]
              simp [isHead]

/-- A search finds the same element in whatever order it goes, if there is no
choice. -/
theorem find?_eq_of_perm {test : α → Bool} {left right : List α}
    (perm : left.Perm right)
    (only : ∀ one ∈ left, ∀ other ∈ left, test one = true →
      test other = true → one = other) :
    left.find? test = right.find? test := by
  cases found : left.find? test with
  | none =>
      rw [List.find?_eq_none] at found
      exact (List.find?_eq_none.mpr (fun element member =>
        found element (perm.mem_iff.mpr member))).symm
  | some one =>
      have passes := List.find?_some found
      have inside := List.mem_of_find?_eq_some found
      cases again : right.find? test with
      | none =>
          rw [List.find?_eq_none] at again
          exact absurd passes (again one (perm.mem_iff.mp inside))
      | some other =>
          rw [only one inside other
            (perm.mem_iff.mpr (List.mem_of_find?_eq_some again)) passes
            (List.find?_some again)]

section

variable {before : α → α → Prop} {within : α → Bool} {list : List α}

/-- Where what passes is downward closed, it is the front of the list. -/
theorem span_eq_filter_of_pairwise (ordered : list.Pairwise before)
    (closed : ∀ one ∈ list, ∀ other ∈ list, before one other →
      within other = true → within one = true) :
    list.takeWhile within = list.filter within ∧
      list.dropWhile within = list.filter (fun one => !within one) := by
  induction list with
  | nil => exact ⟨rfl, rfl⟩
  | cons first rest ih =>
      obtain ⟨least, later⟩ := pairwise_cons.mp ordered
      cases inside : within first with
      | true =>
          have behind := ih later fun one member other otherMember =>
            closed one (mem_cons_of_mem _ member) other
              (mem_cons_of_mem _ otherMember)
          simp [inside, behind]
      | false =>
          have outside : ∀ other ∈ rest, ¬ within other = true := by
            intro other member passes
            rw [closed first mem_cons_self other (mem_cons_of_mem _ member)
              (least other member) passes] at inside
            cases inside
          have silent : rest.filter within = [] := filter_eq_nil_iff.mpr outside
          have whole : rest.filter (fun one => !within one) = rest :=
            filter_eq_self.mpr (by simpa using outside)
          simp [inside, silent, whole]

end

end ArcanaServer.Library
