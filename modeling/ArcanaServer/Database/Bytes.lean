import ArcanaServer.Library.SortedTable
import ArcanaServer.Rooms.Short
import ArcanaServer.Sending.Keys
import Mathlib.Order.Fin.Basic

namespace ArcanaServer.Database

open Library (SortedTable)
open Sending (Byte separator bigEndian toBeBytes)
open List

abbrev Key := List Byte

def strBytes (text : String) : Key :=
  (text.toList.flatMap String.utf8EncodeChar).map UInt8.toFin

def stringFromBytes (bytes : Key) : Option String :=
  String.fromUTF8? (bytes.map UInt8.ofFin).toByteArray

def u64Bytes (value : UInt64) : Key := toBeBytes value.toNat

def i64Bytes (value : Int64) : Key := u64Bytes value.toUInt64

def fromBigEndian (bytes : Key) : Nat :=
  bytes.foldl (fun number byte => 256 * number + byte.val) 0

def u64FromBytes (bytes : Key) : UInt64 := UInt64.ofNat (fromBigEndian bytes)

def i64FromBytes (bytes : Key) : Int64 := (u64FromBytes bytes).toInt64

theorem encoded_toByteArray (text : String) :
    (text.toList.flatMap String.utf8EncodeChar).toByteArray =
      text.toByteArray := by
  rw [← String.utf8Encode_toList]
  rfl

theorem stringFromBytes_strBytes (text : String) :
    stringFromBytes (strBytes text) = some text := by
  have respelled : UInt8.ofFin ∘ UInt8.toFin = id := by
    funext byte
    rfl
  unfold stringFromBytes strBytes String.fromUTF8?
  rw [map_map, respelled, map_id, encoded_toByteArray,
    dif_pos text.isValidUTF8]
  rfl

theorem strBytes_of_stringFromBytes {bytes : Key} {text : String}
    (read : stringFromBytes bytes = some text) : strBytes text = bytes := by
  have encoded := encoded_toByteArray text
  unfold stringFromBytes String.fromUTF8? at read
  split at read
  next valid =>
    cases read
    unfold strBytes
    rw [toByteArray_inj.mp encoded, map_map]
    exact map_id _
  · cases read

theorem strBytes_inj {first second : String}
    (same : strBytes first = strBytes second) : first = second := by
  have read := congrArg stringFromBytes same
  rw [stringFromBytes_strBytes, stringFromBytes_strBytes] at read
  exact Option.some.inj read

theorem separator_notMem_strBytes (text : String) :
    separator ∉ strBytes text := by
  intro member
  obtain ⟨byte, inside, same⟩ := mem_map.mp member
  obtain ⟨char, _, encoded⟩ := mem_flatMap.mp inside
  exact Sending.utf8EncodeChar_lt char byte encoded same

theorem strBytes_empty : strBytes "" = [] := by
  rfl

theorem strBytes_ne_nil {text : String} (nonempty : text ≠ "") :
    strBytes text ≠ [] := by
  intro none
  exact nonempty (strBytes_inj (none.trans strBytes_empty.symm))

theorem u64Bytes_length (value : UInt64) : (u64Bytes value).length = 8 :=
  Sending.bigEndian_length 8 value.toNat

theorem fromBigEndian_bigEndian {length number : Nat}
    (below : number < 256 ^ length) :
    fromBigEndian (bigEndian length number) = number := by
  induction length generalizing number with
  | zero =>
      rw [Nat.pow_zero, Nat.lt_one_iff] at below
      rw [below]
      rfl
  | succ length inductionHypothesis =>
      have higher : number / 256 < 256 ^ length :=
        Nat.div_lt_of_lt_mul (by rwa [Nat.mul_comm, ← Nat.pow_succ])
      have spelled : fromBigEndian (bigEndian (length + 1) number) =
          256 * fromBigEndian (bigEndian length (number / 256)) +
            number % 256 := by
        change fromBigEndian (bigEndian length (number / 256) ++
          [Fin.ofNat 256 number]) = _
        unfold fromBigEndian
        rw [foldl_append]
        rfl
      rw [spelled, inductionHypothesis higher]
      exact Nat.div_add_mod number 256

theorem u64FromBytes_u64Bytes (value : UInt64) :
    u64FromBytes (u64Bytes value) = value := by
  have below : value.toNat < 256 ^ 8 := value.toNat_lt
  unfold u64FromBytes u64Bytes toBeBytes
  rw [fromBigEndian_bigEndian below]
  exact UInt64.ofNat_toNat

theorem i64FromBytes_i64Bytes (value : Int64) :
    i64FromBytes (i64Bytes value) = value := by
  unfold i64FromBytes i64Bytes
  rw [u64FromBytes_u64Bytes]
  exact Int64.toInt64_toUInt64 value

theorem bigEndian_lt_iff {length first second : Nat}
    (firstBelow : first < 256 ^ length) (secondBelow : second < 256 ^ length) :
    bigEndian length first < bigEndian length second ↔ first < second := by
  induction length generalizing first second with
  | zero =>
      rw [Nat.pow_zero, Nat.lt_one_iff] at firstBelow secondBelow
      rw [firstBelow, secondBelow]
      simp
  | succ length ih =>
      have firstHigher : first / 256 < 256 ^ length :=
        Nat.div_lt_of_lt_mul (by rwa [Nat.mul_comm, ← Nat.pow_succ])
      have secondHigher : second / 256 < 256 ^ length :=
        Nat.div_lt_of_lt_mul (by rwa [Nat.mul_comm, ← Nat.pow_succ])
      have lengths : (bigEndian length (first / 256)).length =
          (bigEndian length (second / 256)).length := by
        rw [Sending.bigEndian_length, Sending.bigEndian_length]
      have same : bigEndian length (first / 256) =
          bigEndian length (second / 256) ↔ first / 256 = second / 256 :=
        ⟨Sending.bigEndian_inj firstHigher secondHigher,
          congrArg (bigEndian length)⟩
      have lowest : [Fin.ofNat 256 first] < [Fin.ofNat 256 second] ↔
          first % 256 < second % 256 := by
        rw [cons_lt_cons_iff]
        constructor
        · rintro (less | ⟨_, none⟩)
          · exact less
          · exact absurd none (not_lt_nil _)
        · exact .inl
      change bigEndian length (first / 256) ++ [Fin.ofNat 256 first] <
        bigEndian length (second / 256) ++ [Fin.ofNat 256 second] ↔ _
      rw [SortedTable.append_lt_append_iff lengths, same, lowest,
        ih firstHigher secondHigher]
      omega

theorem u64Bytes_lt_iff {first second : UInt64} :
    u64Bytes first < u64Bytes second ↔ first < second := by
  have firstBelow : first.toNat < 256 ^ 8 := first.toNat_lt
  have secondBelow : second.toNat < 256 ^ 8 := second.toNat_lt
  exact (bigEndian_lt_iff firstBelow secondBelow).trans
    UInt64.lt_iff_toNat_lt.symm

theorem u64Bytes_inj {first second : UInt64}
    (same : u64Bytes first = u64Bytes second) : first = second := by
  have read := congrArg u64FromBytes same
  rw [u64FromBytes_u64Bytes, u64FromBytes_u64Bytes] at read
  exact read

theorem u64Bytes_prefix_iff {first second : UInt64} {rest : Key} :
    u64Bytes first <+: u64Bytes second ++ rest ↔ first = second := by
  constructor
  · intro starts
    have shorter : u64Bytes first <+: u64Bytes second :=
      prefix_of_prefix_length_le starts (prefix_append _ _)
        (by rw [u64Bytes_length, u64Bytes_length])
    exact u64Bytes_inj (shorter.eq_of_length
      (by rw [u64Bytes_length, u64Bytes_length]))
  · intro same
    rw [same]
    exact prefix_append _ _

theorem i64Bytes_inj {first second : Int64}
    (same : i64Bytes first = i64Bytes second) : first = second := by
  have read := congrArg i64FromBytes same
  rw [i64FromBytes_i64Bytes, i64FromBytes_i64Bytes] at read
  exact read

abbrev lastCount : UInt64 := UInt64.ofNat u64Max

/-- `saturating_add(1)`, and also `checked_add(1)` with the old count for an
overflow. -/
def saturatingInc (count : UInt64) : UInt64 :=
  if count = lastCount then count else count + 1

theorem toNat_lastCount : lastCount.toNat = 2 ^ 64 - 1 := by
  decide

theorem le_lastCount (count : UInt64) : count ≤ lastCount := by
  have below : count.toNat < 2 ^ 64 := count.toNat_lt
  rw [UInt64.le_iff_toNat_le, toNat_lastCount]
  omega

theorem not_lastCount_lt (count : UInt64) : ¬ lastCount < count :=
  UInt64.not_lt.mpr (le_lastCount count)

variable {count other : UInt64}

theorem lastCount_le_iff : lastCount ≤ count ↔ count = lastCount := by
  constructor
  · intro last
    exact UInt64.le_antisymm (le_lastCount count) last
  · intro last
    rw [last]
    exact UInt64.le_refl _

theorem saturatingInc_lastCount : saturatingInc lastCount = lastCount :=
  if_pos rfl

theorem toNat_saturatingInc (below : count ≠ lastCount) :
    (saturatingInc count).toNat = count.toNat + 1 := by
  have differs : count.toNat ≠ 2 ^ 64 - 1 := by
    intro same
    exact below (UInt64.toNat_inj.mp (same.trans toNat_lastCount.symm))
  have bound : count.toNat < 2 ^ 64 := count.toNat_lt
  unfold saturatingInc
  rw [if_neg below, UInt64.toNat_add]
  change (count.toNat + 1) % 2 ^ 64 = _
  exact Nat.mod_eq_of_lt (by omega)

theorem saturatingInc_le_iff (below : count ≠ lastCount) :
    saturatingInc count ≤ other ↔ count < other := by
  rw [UInt64.le_iff_toNat_le, UInt64.lt_iff_toNat_lt, toNat_saturatingInc below]
  exact Iff.rfl

theorem lt_saturatingInc (below : count ≠ lastCount) :
    count < saturatingInc count :=
  (saturatingInc_le_iff below).mp (UInt64.le_refl _)

theorem le_saturatingInc (count : UInt64) : count ≤ saturatingInc count := by
  by_cases last : count = lastCount
  · rw [last, saturatingInc_lastCount]
    exact UInt64.le_refl _
  · exact UInt64.le_of_lt (lt_saturatingInc last)

end ArcanaServer.Database
