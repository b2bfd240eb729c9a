import ArcanaServer.Library.Sequence
import Mathlib.Order.Lattice

namespace ArcanaServer.Library

open List

variable {τ ρ : Type} [LinearOrder τ] {lower upper : ρ → τ}

/-! A chain of windows, each of which begins where the one before it ended. -/

inductive Consecutive (lower upper : ρ → τ) (start : τ) : List ρ → τ → Prop
  | nil : Consecutive lower upper start [] start
  | snoc {windows : List ρ} {stop : τ} (window : ρ)
      (earlier : Consecutive lower upper start windows stop)
      (meets : lower window = stop) (ordered : stop ≤ upper window) :
      Consecutive lower upper start (windows ++ [window]) (upper window)

def Within (lower upper : ρ → τ) (window : ρ) (position : τ) : Prop :=
  lower window < position ∧ position ≤ upper window

namespace Consecutive

variable {start stop : τ} {windows : List ρ}

section

variable (chain : Consecutive lower upper start windows stop)
include chain

theorem upper_le {window : ρ} (member : window ∈ windows) :
    upper window ≤ stop := by
  induction chain with
  | nil => cases member
  | snoc last earlier meets ordered inductionHypothesis =>
      rcases mem_append.mp member with old | new
      · exact (inductionHypothesis old).trans ordered
      · rw [mem_singleton.mp new]

theorem before {earlier later : List ρ} {window : ρ}
    (split : windows = earlier ++ window :: later) :
    Consecutive lower upper start earlier (lower window) := by
  induction chain generalizing later with
  | nil => simp at split
  | @snoc windows stop last inner meets ordered inductionHypothesis =>
      rcases snoc_split split with isLast | isEarlier
      · obtain ⟨_, rfl, rfl⟩ := isLast
        rw [meets]
        exact inner
      · obtain ⟨rest, _, sameWindows⟩ := isEarlier
        exact inductionHypothesis sameWindows

theorem lower_le_upper {window : ρ} (member : window ∈ windows) :
    lower window ≤ upper window := by
  induction chain with
  | nil => cases member
  | snoc last earlier meets ordered inductionHypothesis =>
      rcases mem_append.mp member with old | new
      · exact inductionHypothesis old
      · rw [mem_singleton.mp new, meets]
        exact ordered

theorem lower_le_stop {window : ρ} (member : window ∈ windows) :
    lower window ≤ stop :=
  (chain.lower_le_upper member).trans (chain.upper_le member)

end

theorem eq_of_nil (chain : Consecutive lower upper start [] stop) :
    stop = start := by
  generalize isNil : ([] : List ρ) = none at chain
  cases chain with
  | nil => rfl
  | snoc last => simp at isNil

section

variable (chain : Consecutive lower upper start windows stop) {position : τ}
include chain

theorem exists_within (after : start < position) (before : position ≤ stop) :
    ∃ window ∈ windows, Within lower upper window position := by
  induction chain with
  | nil => exact absurd after (not_lt_of_ge before)
  | @snoc windows stop last earlier meets ordered inductionHypothesis =>
      by_cases old : position ≤ stop
      · obtain ⟨window, member, within⟩ := inductionHypothesis old
        exact ⟨window, mem_append_left _ member, within⟩
      · refine ⟨last, mem_append_right _ (mem_singleton_self last), ?_, before⟩
        rw [meets]
        exact lt_of_not_ge old

theorem within_unique {first second : Nat} {left right : ρ}
    (isFirst : windows[first]? = some left)
    (isSecond : windows[second]? = some right)
    (inLeft : Within lower upper left position)
    (inRight : Within lower upper right position) : first = second := by
  induction chain generalizing first second left right with
  | nil => cases isFirst
  | @snoc windows stop last earlier meets ordered inductionHypothesis =>
      have outside : ∀ {index : Nat} {window : ρ},
          windows[index]? = some window →
          Within lower upper window position →
          ¬ Within lower upper last position := by
        intro index window isWindow within isLast
        have bounded := earlier.upper_le (mem_of_getElem? isWindow)
        rw [← meets] at bounded
        exact absurd (within.2.trans bounded) (not_le_of_gt isLast.1)
      have placed : ∀ {index : Nat} {window : ρ},
          (windows ++ [last])[index]? = some window →
          windows[index]? = some window ∨
            (index = windows.length ∧ window = last) := by
        intro index window isWindow
        by_cases inside : index < windows.length
        · rw [List.getElem?_append_left inside] at isWindow
          exact .inl isWindow
        · rw [List.getElem?_append_right (Nat.not_lt.mp inside)] at isWindow
          have isZero : index - windows.length = 0 := by
            by_contra positive
            rw [List.getElem?_eq_none (by simp; omega)] at isWindow
            cases isWindow
          rw [isZero] at isWindow
          cases isWindow
          exact .inr ⟨by omega, rfl⟩
      rcases placed isFirst with oldFirst | newFirst
      · rcases placed isSecond with oldSecond | newSecond
        · exact inductionHypothesis oldFirst oldSecond inLeft inRight
        · exact absurd (newSecond.2 ▸ inRight) (outside oldFirst inLeft)
      · rcases placed isSecond with oldSecond | newSecond
        · exact absurd (newFirst.2 ▸ inLeft) (outside oldSecond inRight)
        · exact newFirst.1.trans newSecond.1.symm

/-- If each window delivers what lies in it or is marked, and nothing else, then
what lies in the chain is delivered exactly once or lies in a marked window. -/
theorem delivered_once (after : start < position) (before : position ≤ stop)
    {delivers marked : ρ → Prop} (sound : ∀ window ∈ windows, delivers window →
      Within lower upper window position)
    (complete : ∀ window ∈ windows, Within lower upper window position →
      delivers window ∨ marked window) :
    (∃! index : Nat, ∃ window, windows[index]? = some window ∧
        delivers window) ∨
      ∃ window ∈ windows, Within lower upper window position ∧
        marked window := by
  obtain ⟨window, member, within⟩ := chain.exists_within after before
  rcases complete window member within with isDelivered | isMarked
  · left
    obtain ⟨index, isWindow⟩ := List.getElem?_of_mem member
    refine ⟨index, ⟨window, isWindow, isDelivered⟩, ?_⟩
    rintro other ⟨second, isSecond, delivered⟩
    have inSecond := sound second (mem_of_getElem? isSecond) delivered
    exact chain.within_unique isSecond isWindow inSecond within
  · exact .inr ⟨window, member, within, isMarked⟩

end

end Consecutive

end ArcanaServer.Library
