import ArcanaServer.Library.SortedTable
import Mathlib.Algebra.Group.Nat.Defs

namespace ArcanaServer.Library

open List

/-! Numbers in decimal, and the order of their spellings: a number with fewer
digits is compared with the first digits of the other one. -/

def places (number : Nat) : Nat := (Nat.toDigits 10 number).length

theorem places_of_lt {number : Nat} (small : number < 10) :
    places number = 1 := by
  unfold places
  rw [Nat.toDigits_of_lt_base small]
  rfl

theorem places_of_le {number : Nat} (large : 10 ≤ number) :
    places number = places (number / 10) + 1 := by
  unfold places
  rw [Nat.toDigits_of_base_le (by decide) large, length_append]
  rfl

theorem places_pos (number : Nat) : 0 < places number := Nat.length_toDigits_pos

theorem places_eq_one_iff {number : Nat} : places number = 1 ↔ number < 10 := by
  constructor
  · intro one
    by_contra large
    rw [places_of_le (Nat.le_of_not_lt large)] at one
    have more := places_pos (number / 10)
    omega
  · exact places_of_lt

theorem lt_ten_iff_of_places {first second : Nat}
    (lengths : places first = places second) :
    first < 10 ↔ second < 10 := by
  rw [← places_eq_one_iff, ← places_eq_one_iff, lengths]

theorem places_mono {first second : Nat} (le : first ≤ second) :
    places first ≤ places second := by
  have fits := (Nat.length_toDigits_le_iff (by decide)
    (places_pos second)).mp (Nat.le_refl (places second))
  exact (Nat.length_toDigits_le_iff (by decide) (places_pos second)).mpr
    (Nat.lt_of_le_of_lt le fits)

section

variable {α : Type}

variable (spell : Char → α) (number : Nat)

def decimal : List α :=
  (Nat.toDigits 10 number).map spell

theorem length_decimal : (decimal spell number).length = places number :=
  length_map _

theorem decimal_of_lt {spell : Char → α} {number : Nat} (small : number < 10) :
    decimal spell number = [spell (Nat.digitChar number)] := by
  unfold decimal
  rw [Nat.toDigits_of_lt_base small]
  rfl

theorem decimal_of_le {spell : Char → α} {number : Nat} (large : 10 ≤ number) :
    decimal spell number =
      decimal spell (number / 10) ++ [spell (Nat.digitChar (number % 10))] := by
  unfold decimal
  rw [Nat.toDigits_of_base_le (by decide) large, map_append]
  rfl

theorem decimal_split {last : Nat} (fewer : last < places number) :
    places (number / 10 ^ last) + last = places number ∧
      ∃ rest, rest.length = last ∧ decimal spell number =
          decimal spell (number / 10 ^ last) ++ rest := by
  induction last generalizing number with
  | zero =>
      rw [Nat.pow_zero, Nat.div_one]
      exact ⟨rfl, [], rfl, (append_nil _).symm⟩
  | succ last ih =>
      have large : 10 ≤ number := by
        by_contra small
        rw [places_of_lt (Nat.lt_of_not_le small)] at fewer
        omega
      rw [places_of_le large] at fewer ⊢
      obtain ⟨count, rest, length, split⟩ :=
        ih (number / 10) (Nat.lt_of_succ_lt_succ fewer)
      have divided : number / 10 ^ (last + 1) = number / 10 / 10 ^ last := by
        rw [Nat.div_div_eq_div_mul, Nat.pow_succ, Nat.mul_comm]
      rw [divided]
      refine ⟨by omega, rest ++ [spell (Nat.digitChar (number % 10))], ?_, ?_⟩
      · rw [length_append, length]
        rfl
      · rw [decimal_of_le large, split, append_assoc]

variable [LinearOrder α] {spell : Char → α} {first second : Nat}

def Increasing (spell : Char → α) : Prop := ∀ one other, one < 10 → other < 10 →
    (spell (Nat.digitChar one) < spell (Nat.digitChar other) ↔ one < other)

section

variable (increasing : Increasing spell)
include increasing

theorem Increasing.eq {one other : Nat} (isDigit : one < 10)
    (otherDigit : other < 10)
    (same : spell (Nat.digitChar one) = spell (Nat.digitChar other)) :
    one = other := by
  have notLess := (increasing one other isDigit otherDigit).not.mp
    (same ▸ lt_irrefl _)
  have notMore := (increasing other one otherDigit isDigit).not.mp
    (same ▸ lt_irrefl _)
  omega

theorem decimal_inj (same : decimal spell first = decimal spell second) :
    first = second := by
  have lengths := congrArg List.length same
  rw [length_decimal, length_decimal] at lengths
  induction first using Nat.strongRecOn generalizing second with
  | ind first ih =>
      by_cases small : first < 10
      · have otherSmall := (lt_ten_iff_of_places lengths).mp small
        rw [decimal_of_lt small, decimal_of_lt otherSmall] at same
        exact increasing.eq small otherSmall (List.cons.inj same).1
      · have large := Nat.le_of_not_lt small
        have otherLarge := Nat.le_of_not_lt
          ((lt_ten_iff_of_places lengths).not.mp small)
        rw [places_of_le large, places_of_le otherLarge] at lengths
        rw [decimal_of_le large, decimal_of_le otherLarge] at same
        obtain ⟨tens, units⟩ := append_inj' same rfl
        have higher := ih (first / 10) (by omega) tens (Nat.succ.inj lengths)
        have lower := increasing.eq (Nat.mod_lt first (by decide))
          (Nat.mod_lt second (by decide)) (List.cons.inj units).1
        omega

theorem decimal_lt_iff_of_places (lengths : places first = places second) :
    decimal spell first < decimal spell second ↔ first < second := by
  induction first using Nat.strongRecOn generalizing second with
  | ind first ih =>
      by_cases small : first < 10
      · have otherSmall := (lt_ten_iff_of_places lengths).mp small
        rw [decimal_of_lt small, decimal_of_lt otherSmall, cons_lt_cons_iff]
        refine Iff.trans ?_ (increasing first second small otherSmall)
        exact or_iff_left fun both => not_lt_nil _ both.2
      · have large := Nat.le_of_not_lt small
        have otherLarge := Nat.le_of_not_lt
          ((lt_ten_iff_of_places lengths).not.mp small)
        rw [places_of_le large, places_of_le otherLarge] at lengths
        have tens := Nat.succ.inj lengths
        have whole : decimal spell (first / 10) =
            decimal spell (second / 10) ↔ first / 10 = second / 10 :=
          ⟨decimal_inj increasing, congrArg (decimal spell)⟩
        have units := increasing (first % 10) (second % 10)
          (Nat.mod_lt first (by decide)) (Nat.mod_lt second (by decide))
        rw [decimal_of_le large, decimal_of_le otherLarge,
          SortedTable.append_lt_append_iff
            (by rw [length_decimal, length_decimal, tens]),
          ih (first / 10) (by omega) tens, whole, cons_lt_cons_iff,
          units]
        simp only [not_lt_nil, and_false, or_false]
        omega

/-- The smaller number has the smaller spelling just where it is not above the
first digits of the other one. -/
theorem decimal_lt_iff (less : first < second) :
    decimal spell first < decimal spell second ↔
      first ≤ second / 10 ^ (places second - places first) := by
  have fewer : places second - places first < places second :=
    Nat.sub_lt (places_pos second) (places_pos first)
  have shorter := places_mono less.le
  obtain ⟨count, rest, length, split⟩ := decimal_split spell second fewer
  have lengths : places first =
      places (second / 10 ^ (places second - places first)) := by
    omega
  have even : places second - places first = 0 →
      second / 10 ^ (places second - places first) = second := by
    intro none_
    rw [none_, Nat.pow_zero, Nat.div_one]
  generalize second / 10 ^ (places second - places first) = head at *
  have whole : decimal spell first = decimal spell head ↔ first = head :=
    ⟨decimal_inj increasing, congrArg (decimal spell)⟩
  have alone : decimal spell first = decimal spell first ++ [] :=
    (append_nil _).symm
  rw [split, alone, SortedTable.append_lt_append_iff
    (by rw [length_decimal, length_decimal, lengths]),
    decimal_lt_iff_of_places increasing lengths, whole]
  by_cases same : places second - places first = 0
  · rw [even same]
    exact iff_of_true (.inl less) less.le
  · cases rest with
    | nil => exact absurd length.symm same
    | cons digit later =>
        have longer := nil_lt_cons digit later
        simp only [longer, and_true]
        exact Nat.le_iff_lt_or_eq.symm

end

end

def readDigit (number : Nat) (digit : Char) : Option Nat :=
  if digit.isDigit then some (10 * number + (digit.toNat - '0'.toNat))
  else none

def readDigits : List Char → Option Nat
  | [] => none
  | digits => digits.foldlM readDigit 0

theorem readDigit_digitChar (number : Nat) {digit : Nat} (small : digit < 10) :
    readDigit number (Nat.digitChar digit) = some (10 * number + digit) := by
  have value : ∀ one < 10, (Nat.digitChar one).isDigit = true ∧
      (Nat.digitChar one).toNat - '0'.toNat = one := by decide
  obtain ⟨isDigit, same⟩ := value digit small
  unfold readDigit
  rw [if_pos isDigit, same]

theorem foldlM_readDigit_toDigits (number : Nat) :
    (Nat.toDigits 10 number).foldlM readDigit 0 = some number := by
  induction number using Nat.strongRecOn with
  | ind number ih =>
      by_cases small : number < 10
      · rw [Nat.toDigits_of_lt_base small, foldlM_cons,
          readDigit_digitChar 0 small, Nat.mul_zero, Nat.zero_add]
        rfl
      · have large := Nat.le_of_not_lt small
        rw [Nat.toDigits_of_base_le (by decide) large, foldlM_append,
          ih (number / 10) (by omega)]
        change [Nat.digitChar (number % 10)].foldlM readDigit (number / 10) = _
        rw [foldlM_cons, readDigit_digitChar _ (Nat.mod_lt number (by decide)),
          Nat.div_add_mod]
        rfl

theorem readDigits_toDigits (number : Nat) :
    readDigits (Nat.toDigits 10 number) = some number := by
  have read := foldlM_readDigit_toDigits number
  cases digits : Nat.toDigits 10 number with
  | nil =>
      have length := places_pos number
      unfold places at length
      rw [digits] at length
      cases length
  | cons first rest =>
      rw [digits] at read
      exact read

end ArcanaServer.Library
