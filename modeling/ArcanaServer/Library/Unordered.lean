import Mathlib.Data.List.Nodup
import Mathlib.Data.List.Range
import Mathlib.Data.List.Perm.Basic
import Mathlib.Data.List.Sort

namespace ArcanaServer.Library

open List

variable {α β : Type}

theorem exists_swapped {order : List Nat} {count : Nat}
    (perm : order.Perm (range count)) (shuffled : order ≠ range count) :
    ∃ early late, early < late ∧ [late, early].Sublist order := by
  by_contra none
  have sorted : order.Pairwise (· < ·) := by
    rw [pairwise_iff_forall_sublist]
    intro left right sublist
    by_contra notBelow
    have nodup : order.Nodup := perm.nodup_iff.mpr nodup_range
    have different : left ≠ right := by
      simpa using nodup.sublist sublist
    exact none ⟨right, left, by omega, sublist⟩
  exact shuffled (perm.eq_of_pairwise
    (fun left right _ _ below above => by omega) sorted
    pairwise_lt_range)

theorem filter_pair_eq {order : List Nat} (nodup : order.Nodup)
    {first second : Nat} (sublist : [first, second].Sublist order) :
    order.filter (fun item => item = first ∨ item = second) =
      [first, second] := by
  have kept : [first, second].Sublist
      (order.filter (fun item => item = first ∨ item = second)) := by
    have filtered := sublist.filter
      (fun item => decide (item = first ∨ item = second))
    simpa using filtered
  have small : (order.filter
      (fun item => item = first ∨ item = second)).length ≤ 2 := by
    have subset : order.filter (fun item => item = first ∨ item = second) ⊆
        [first, second] := by
      intro item member
      simpa using (mem_filter.mp member).2
    exact (subperm_of_subset (nodup.filter _) subset).length_le
  exact (kept.eq_of_length_le small).symm

theorem pair_sublist_range {count early late : Nat} (order : early < late)
    (inside : late < count) : [early, late].Sublist (range count) := by
  have split : range count =
      range late ++ range' late (count - late) := by
    rw [range_eq_range', range_eq_range']
    have glued := range'_append_1 (s := 0) (m := late) (n := count - late)
    rw [Nat.zero_add] at glued
    rw [glued]
    congr 1
    omega
  rw [split]
  have left : [early].Sublist (range late) :=
    singleton_sublist.mpr (mem_range.mpr order)
  have right : [late].Sublist (range' late (count - late)) :=
    singleton_sublist.mpr (by simp [mem_range'_1]; omega)
  exact left.append right

theorem before_or_after {below : α → α → Prop} {list : List α}
    (sorted : list.Pairwise below) {one other : α} (oneMember : one ∈ list)
    (otherMember : other ∈ list) (different : one ≠ other) :
    below one other ∨ below other one := by
  have : Std.Symm (fun left right => below left right ∨ below right left) :=
    ⟨fun _ _ => Or.symm⟩
  have either : list.Pairwise (fun left right =>
      below left right ∨ below right left) := sorted.imp .inl
  exact either.forall oneMember otherMember different

/-- Sorting undoes any order, if no two items have the same place. -/
theorem insertionSort_eq_of_perm {below : α → α → Prop} [DecidableRel below]
    [Std.Total below] [IsTrans α below] {left right : List α}
    (perm : left.Perm right)
    (antisymm : ∀ one ∈ left, ∀ other ∈ left, below one other →
      below other one → one = other) :
    left.insertionSort below = right.insertionSort below := by
  have leftPerm := perm_insertionSort below left
  have rightPerm := perm_insertionSort below right
  refine (leftPerm.trans (perm.trans rightPerm.symm)).eq_of_pairwise ?_
    (pairwise_insertionSort below left)
    (pairwise_insertionSort below right)
  intro one other oneListed otherListed
  exact antisymm one (leftPerm.mem_iff.mp oneListed) other
    (perm.mem_iff.mpr (rightPerm.mem_iff.mp otherListed))

/-- The order in which running computations complete: how many may run at
once, and which of the running ones is the next to complete. -/
structure Completion where
  width : Nat
  positive : 0 < width
  pick : Nat → Nat

namespace Completion

def remaining (completion : Completion) : Nat → List α → List α → List α
  | 0, _, _ => []
  | rounds + 1, running, waiting =>
      let room := completion.width - running.length
      let started := running ++ waiting.take room
      let index := completion.pick rounds % started.length
      match started[index]? with
      | none => []
      | some item =>
          item :: completion.remaining rounds (started.eraseIdx index)
            (waiting.drop room)

def bufferUnordered (completion : Completion) (items : List α) : List α :=
  completion.remaining items.length [] items

def oldestFirst (width : Nat) (positive : 0 < width) : Completion where
  width := width
  positive := positive
  pick := fun _ => 0

def InOrder (completion : Completion) (count : Nat) : Prop :=
  completion.bufferUnordered (List.range count) = List.range count

instance (completion : Completion) (count : Nat) :
    Decidable (completion.InOrder count) :=
  inferInstanceAs (Decidable (_ = _))

theorem remaining_perm (completion : Completion) :
    ∀ (rounds : Nat) (running waiting : List α),
      rounds = running.length + waiting.length →
      (completion.remaining rounds running waiting).Perm
        (running ++ waiting) := by
  intro rounds
  induction rounds with
  | zero =>
      intro running waiting budget
      have runningEmpty : running = [] := length_eq_zero_iff.mp (by omega)
      have waitingEmpty : waiting = [] := length_eq_zero_iff.mp (by omega)
      rw [runningEmpty, waitingEmpty]
      exact List.Perm.refl _
  | succ rounds ih =>
      intro running waiting budget
      have positive := completion.positive
      let room := completion.width - running.length
      let started := running ++ waiting.take room
      have startedLength :
          started.length + (waiting.drop room).length = rounds + 1 := by
        simp only [started, length_append, length_take, length_drop]
        omega
      have someStarted : 0 < started.length := by
        simp only [started, room, length_append, length_take]
        omega
      have inside : completion.pick rounds % started.length < started.length :=
        Nat.mod_lt _ someStarted
      have regrouped : running ++ waiting = started ++ waiting.drop room := by
        simp [started]
      rw [regrouped]
      simp only [remaining]
      rw [List.getElem?_eq_getElem inside]
      refine ((ih _ _ ?_).cons _).trans ?_
      · rw [length_eraseIdx_of_lt inside]
        change rounds = started.length - 1 + (waiting.drop room).length
        omega
      · exact ((getElem_cons_eraseIdx_perm inside).append_right _)

theorem bufferUnordered_perm (completion : Completion) (items : List α) :
    (completion.bufferUnordered items).Perm items :=
  completion.remaining_perm items.length [] items (by simp)

theorem remaining_map (completion : Completion) (f : α → β) :
    ∀ (rounds : Nat) (running waiting : List α),
      completion.remaining rounds (running.map f) (waiting.map f) =
        (completion.remaining rounds running waiting).map f := by
  intro rounds
  induction rounds with
  | zero => intro running waiting; rfl
  | succ rounds ih =>
      intro running waiting
      simp only [remaining, length_map, ← map_take,
        ← map_append, ← map_drop, List.getElem?_map]
      cases found : (running ++ waiting.take
          (completion.width - running.length))[completion.pick rounds %
            (running ++ waiting.take
              (completion.width - running.length)).length]? with
      | none => rfl
      | some item =>
          simp only [Option.map_some, map_cons, List.cons.injEq, true_and]
          rw [← ih, eraseIdx_map]

/-- The order of completion does not depend on the items. -/
theorem bufferUnordered_map (completion : Completion) (f : α → β)
    (items : List α) :
    completion.bufferUnordered (items.map f) =
      (completion.bufferUnordered items).map f := by
  unfold bufferUnordered
  rw [length_map]
  exact completion.remaining_map f items.length [] items

theorem InOrder.bufferUnordered_eq {completion : Completion}
    {items : List α} (ordered : completion.InOrder items.length) :
    completion.bufferUnordered items = items := by
  cases items with
  | nil => rfl
  | cons first rest =>
      let items := first :: rest
      have listed : items = (range items.length).map
          (fun index => items.getD index first) := by
        apply ext_getElem
        · simp
        · intro index inside _
          simp [List.getElem?_eq_getElem inside]
      calc completion.bufferUnordered items
          = completion.bufferUnordered ((range items.length).map
              (fun index => items.getD index first)) := by rw [← listed]
        _ = (completion.bufferUnordered (range items.length)).map
              (fun index => items.getD index first) :=
            completion.bufferUnordered_map _ _
        _ = items := by rw [ordered, ← listed]

theorem oldestFirst_remaining {width : Nat} (positive : 0 < width) :
    ∀ (rounds : Nat) (running waiting : List α),
      rounds = running.length + waiting.length →
      (oldestFirst width positive).remaining rounds running waiting =
        running ++ waiting := by
  intro rounds
  induction rounds with
  | zero =>
      intro running waiting budget
      have runningEmpty : running = [] := length_eq_zero_iff.mp (by omega)
      have waitingEmpty : waiting = [] := length_eq_zero_iff.mp (by omega)
      simp [runningEmpty, waitingEmpty, remaining]
  | succ rounds ih =>
      intro running waiting budget
      let room := width - running.length
      have regrouped : running ++ waiting =
          (running ++ waiting.take room) ++ waiting.drop room := by simp
      rw [regrouped]
      have lengths := congrArg length regrouped
      simp only [remaining, oldestFirst, Nat.zero_mod]
      cases started : running ++ waiting.take room with
      | nil =>
          have sizes := congrArg length started
          simp only [length_append, length_take, length_nil, room] at sizes
          omega
      | cons first rest =>
          simp only [room] at started
          simp only [List.getElem?_cons_zero, eraseIdx_cons_zero]
          rw [started] at lengths
          simp only [length_append, length_cons] at lengths
          exact congrArg (List.cons first) (ih rest (waiting.drop room)
            (by omega))

theorem oldestFirst_inOrder {width : Nat} (positive : 0 < width)
    (count : Nat) : (oldestFirst width positive).InOrder count :=
  oldestFirst_remaining positive _ [] (range count) (by simp)

theorem mem_bufferUnordered {completion : Completion} {items : List α}
    {item : α} : item ∈ completion.bufferUnordered items ↔ item ∈ items :=
  (completion.bufferUnordered_perm items).mem_iff

end Completion

end ArcanaServer.Library
