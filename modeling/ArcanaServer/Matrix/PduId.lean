import ArcanaServer.Database.Bytes
import Mathlib.Algebra.Group.Int.Defs

namespace ArcanaServer.Matrix

open Database
open Library (SortedTable)
open Sending (RawPduId)
open List

/-! The ids of the events of a room.  They begin with the short id of the room
and end with the count of the event. -/

abbrev ShortRoomId := UInt64

inductive Direction where
  | forward
  | backward
  deriving DecidableEq, Repr

inductive PduCount where
  | normal (count : UInt64)
  | backfilled (count : Int64)
  deriving DecidableEq, Repr

namespace PduCount

def intoSigned : PduCount → Int64
  | .normal count => count.toInt64
  | .backfilled count => count

def fromSigned (signed : Int64) : PduCount :=
  if signed ≤ 0 then .backfilled signed else .normal signed.toUInt64

def fromUnsigned (unsigned : UInt64) : PduCount := fromSigned unsigned.toInt64

def min : PduCount := .backfilled Int64.minValue

def max : PduCount := .normal 0x7FFFFFFFFFFFFFFF

instance : LT PduCount :=
  ⟨fun older newer => older.intoSigned < newer.intoSigned⟩

instance (older newer : PduCount) : Decidable (older < newer) :=
  inferInstanceAs (Decidable (older.intoSigned < newer.intoSigned))

def saturatingAdd (count : PduCount) (add : UInt64) : PduCount :=
  match count with
  | .normal count =>
      .normal (UInt64.ofNat (Nat.min (count.toNat + add.toNat) (2 ^ 64 - 1)))
  | .backfilled count => .backfilled (clamp (count.toInt + add.toInt64.toInt))
where
  clamp (sum : Int) : Int64 := Int64.ofInt
    (Max.max Int64.minValue.toInt (Min.min sum Int64.maxValue.toInt))

def saturatingSub (count : PduCount) (sub : UInt64) : PduCount :=
  match count with
  | .normal count => .normal (UInt64.ofNat (count.toNat - sub.toNat))
  | .backfilled count =>
      .backfilled (saturatingAdd.clamp (count.toInt - sub.toInt64.toInt))

def saturatingInc (count : PduCount) : Direction → PduCount
  | .forward => count.saturatingAdd 1
  | .backward => count.saturatingSub 1

def Drawn : PduCount → Prop
  | .normal count => 0 < count ∧ count ≤ 0x7FFFFFFFFFFFFFFF
  | .backfilled count => count < 0

instance : DecidablePred Drawn
  | .normal count => inferInstanceAs
      (Decidable (0 < count ∧ count ≤ 0x7FFFFFFFFFFFFFFF))
  | .backfilled count => inferInstanceAs (Decidable (count < 0))

def bytes : PduCount → Key
  | .normal count => u64Bytes count
  | .backfilled count => u64Bytes 0 ++ i64Bytes count

theorem drawn_max : max.Drawn := by
  constructor <;> decide

end PduCount

structure PduId where
  shortroomid : ShortRoomId
  shorteventid : PduCount
  deriving DecidableEq, Repr

def PduId.raw (id : PduId) : RawPduId where
  bytes := u64Bytes id.shortroomid ++ id.shorteventid.bytes
  isLength := by
    cases id.shorteventid with
    | normal count =>
        left
        unfold PduCount.bytes
        rw [List.length_append, u64Bytes_length, u64Bytes_length]
    | backfilled count =>
        right
        unfold PduCount.bytes i64Bytes
        rw [List.length_append, List.length_append, u64Bytes_length,
          u64Bytes_length, u64Bytes_length]

theorem toInt_eq (count : Int64) :
    count.toInt = if 2 * count.toUInt64.toNat < 2 ^ 64
      then (count.toUInt64.toNat : Int)
      else (count.toUInt64.toNat : Int) - 2 ^ 64 :=
  BitVec.toInt_eq_toNat_cond count.toBitVec

theorem toInt_of_negative {count : Int64} (negative : count < 0) :
    count.toInt = (count.toUInt64.toNat : Int) - 2 ^ 64 ∧ count.toInt < 0 := by
  have below : count.toInt < 0 := Int64.lt_iff_toInt_lt.mp negative
  have value := toInt_eq count
  split at value
  · omega
  · exact ⟨value, below⟩

namespace PduCount

variable {older newer : PduCount}

theorem toInt_of_drawn {count : UInt64}
    (drawn : (PduCount.normal count).Drawn) :
    count.toInt64.toInt = count.toNat ∧ 0 < count.toNat := by
  have positive : 0 < count.toNat := UInt64.lt_iff_toNat_lt.mp drawn.1
  have bounded : count.toNat ≤ 0x7FFFFFFFFFFFFFFF :=
    UInt64.le_iff_toNat_le.mp drawn.2
  refine ⟨?_, positive⟩
  rw [toInt_eq, UInt64.toUInt64_toInt64]
  exact if_pos (by omega)

/-- The place of the bytes of a count among those of all counts.  The bytes of
the normal count 0 begin those of every backfilled count. -/
def rank : PduCount → Nat
  | .normal count => if count = 0 then 0 else 2 ^ 64 + count.toNat
  | .backfilled count => 1 + count.toUInt64.toNat

theorem rank_normal (count : UInt64) :
    (PduCount.normal count).rank = 0 ∧ count.toNat = 0 ∨
      (PduCount.normal count).rank = 2 ^ 64 + count.toNat ∧
        0 < count.toNat := by
  by_cases zero : count = 0
  · rw [zero]
    exact .inl ⟨rfl, rfl⟩
  · refine .inr ⟨if_neg zero, Nat.pos_of_ne_zero fun none => zero ?_⟩
    exact UInt64.toNat_inj.mp none

theorem bytes_lt_iff_rank : older.bytes < newer.bytes ↔
    older.rank < newer.rank := by
  have lengths (first second : UInt64) :
      (u64Bytes first).length = (u64Bytes second).length := by
    rw [u64Bytes_length, u64Bytes_length]
  cases older with
  | normal older =>
      have olderRank := rank_normal older
      cases newer with
      | normal newer =>
          have newerRank := rank_normal newer
          unfold bytes
          rw [u64Bytes_lt_iff, UInt64.lt_iff_toNat_lt]
          omega
      | backfilled newer =>
          have below : newer.toUInt64.toNat < 2 ^ 64 := newer.toUInt64.toNat_lt
          have newerRank : (PduCount.backfilled newer).rank =
              1 + newer.toUInt64.toNat := rfl
          have shorter : [] < i64Bytes newer := by
            cases bytes : i64Bytes newer with
            | nil =>
                have length := u64Bytes_length newer.toUInt64
                rw [show u64Bytes newer.toUInt64 = [] from bytes] at length
                cases length
            | cons byte rest => exact nil_lt_cons byte rest
          have ordered : u64Bytes older ++ [] <
              u64Bytes 0 ++ i64Bytes newer ↔ older = 0 := by
            rw [SortedTable.append_lt_append_iff (lengths older 0),
              u64Bytes_lt_iff]
            constructor
            · rintro (less | ⟨same, _⟩)
              · exact absurd (UInt64.lt_iff_toNat_lt.mp less)
                  (Nat.not_lt_zero _)
              · exact u64Bytes_inj same
            · intro zero
              rw [zero]
              exact .inr ⟨rfl, shorter⟩
          rw [append_nil] at ordered
          refine Iff.trans ordered ?_
          rw [← UInt64.toNat_inj, UInt64.toNat_zero]
          omega
  | backfilled older =>
      have olderRank : (PduCount.backfilled older).rank =
          1 + older.toUInt64.toNat := rfl
      have below : older.toUInt64.toNat < 2 ^ 64 := older.toUInt64.toNat_lt
      cases newer with
      | normal newer =>
          have newerRank := rank_normal newer
          have ordered : u64Bytes 0 ++ i64Bytes older <
              u64Bytes newer ++ [] ↔ 0 < newer := by
            rw [SortedTable.append_lt_append_iff (lengths 0 newer),
              u64Bytes_lt_iff]
            refine or_iff_left ?_
            rintro ⟨_, none⟩
            exact not_lt_nil _ none
          rw [append_nil] at ordered
          refine Iff.trans ordered ?_
          rw [UInt64.lt_iff_toNat_lt, UInt64.toNat_zero]
          omega
      | backfilled newer =>
          have newerRank : (PduCount.backfilled newer).rank =
              1 + newer.toUInt64.toNat := rfl
          unfold bytes i64Bytes
          rw [SortedTable.append_lt_append_left_iff, u64Bytes_lt_iff,
            UInt64.lt_iff_toNat_lt]
          omega

theorem rank_lt_iff (olderDrawn : older.Drawn) (newerDrawn : newer.Drawn) :
    older.rank < newer.rank ↔ older.intoSigned < newer.intoSigned := by
  rw [Int64.lt_iff_toInt_lt]
  cases older with
  | normal older =>
      obtain ⟨olderValue, olderPositive⟩ := toInt_of_drawn olderDrawn
      have olderRank := rank_normal older
      cases newer with
      | normal newer =>
          obtain ⟨newerValue, _⟩ := toInt_of_drawn newerDrawn
          have newerRank := rank_normal newer
          change _ ↔ older.toInt64.toInt < newer.toInt64.toInt
          omega
      | backfilled newer =>
          have newerNegative := (toInt_of_negative newerDrawn).2
          have below : newer.toUInt64.toNat < 2 ^ 64 := newer.toUInt64.toNat_lt
          change _ < 1 + newer.toUInt64.toNat ↔
            older.toInt64.toInt < newer.toInt
          omega
  | backfilled older =>
      obtain ⟨olderValue, olderNegative⟩ := toInt_of_negative olderDrawn
      have below : older.toUInt64.toNat < 2 ^ 64 := older.toUInt64.toNat_lt
      cases newer with
      | normal newer =>
          obtain ⟨newerValue, _⟩ := toInt_of_drawn newerDrawn
          have newerRank := rank_normal newer
          change 1 + older.toUInt64.toNat < _ ↔
            older.toInt < newer.toInt64.toInt
          omega
      | backfilled newer =>
          obtain ⟨newerValue, _⟩ := toInt_of_negative newerDrawn
          change 1 + older.toUInt64.toNat < 1 + newer.toUInt64.toNat ↔
            older.toInt < newer.toInt
          omega

theorem bytes_lt_iff (olderDrawn : older.Drawn) (newerDrawn : newer.Drawn) :
    older.bytes < newer.bytes ↔ older.intoSigned < newer.intoSigned :=
  bytes_lt_iff_rank.trans (rank_lt_iff olderDrawn newerDrawn)

end PduCount

namespace PduId

variable {older newer : PduId}

theorem raw_lt_iff (sameRoom : older.shortroomid = newer.shortroomid)
    (olderDrawn : older.shorteventid.Drawn)
    (newerDrawn : newer.shorteventid.Drawn) :
    older.raw.bytes < newer.raw.bytes ↔
      older.shorteventid.intoSigned < newer.shorteventid.intoSigned := by
  unfold raw
  dsimp only
  rw [sameRoom, SortedTable.append_lt_append_left_iff]
  exact PduCount.bytes_lt_iff olderDrawn newerDrawn

theorem raw_injective : Function.Injective PduId.raw := by
  intro ⟨firstRoom, first⟩ ⟨secondRoom, second⟩ same
  have bytes : u64Bytes firstRoom ++ first.bytes =
      u64Bytes secondRoom ++ second.bytes := congrArg RawPduId.bytes same
  obtain ⟨rooms, counts⟩ := append_inj bytes
    (by rw [u64Bytes_length, u64Bytes_length])
  rw [u64Bytes_inj rooms]
  have lengths := congrArg List.length counts
  cases first with
  | normal first =>
      cases second with
      | normal second => rw [u64Bytes_inj counts]
      | backfilled second =>
          unfold PduCount.bytes i64Bytes at lengths
          rw [length_append] at lengths
          simp only [u64Bytes_length] at lengths
          omega
  | backfilled first =>
      cases second with
      | normal second =>
          unfold PduCount.bytes i64Bytes at lengths
          rw [length_append] at lengths
          simp only [u64Bytes_length] at lengths
          omega
      | backfilled second =>
          rw [i64Bytes_inj (append_cancel_left counts)]

/-- No id of the room comes after the greatest count. -/
theorem not_max_lt_raw {id : PduId} (drawn : id.shorteventid.Drawn) :
    ¬ (PduId.mk id.shortroomid .max).raw.bytes < id.raw.bytes := by
  rw [@raw_lt_iff ⟨id.shortroomid, .max⟩ id rfl PduCount.drawn_max drawn,
    Int64.lt_iff_toInt_lt]
  have greatest := id.shorteventid.intoSigned.toInt_lt
  have value : PduCount.max.intoSigned.toInt = 2 ^ 63 - 1 := by decide
  rw [value]
  omega

end PduId

end ArcanaServer.Matrix
