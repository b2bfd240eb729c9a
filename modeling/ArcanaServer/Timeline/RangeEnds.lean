import ArcanaServer.Timeline.Ranges

namespace ArcanaServer.Timeline

open Database Library ArcanaServer.Matrix List PduCount UInt64

namespace Landing

variable {event : PduCount} {moved : Nat}

theorem rank_drawn (drawn : event.Drawn) : 0 < event.intoSigned.toInt ∧
        (event.rank : Int) = 2 ^ 64 + event.intoSigned.toInt ∨
      event.intoSigned.toInt < 0 ∧
        (event.rank : Int) = 2 ^ 64 + 1 + event.intoSigned.toInt := by
  cases event with
  | normal count =>
      obtain ⟨value, positive⟩ := toInt_of_drawn drawn
      have rank := rank_normal count
      change 0 < count.toInt64.toInt ∧ _ = _ + count.toInt64.toInt ∨
        count.toInt64.toInt < 0 ∧ _ = _ + count.toInt64.toInt
      omega
  | backfilled count =>
      obtain ⟨value, negative⟩ := toInt_of_negative drawn
      have rank : (backfilled count).rank =
          1 + count.toUInt64.toNat := rfl
      change 0 < count.toInt ∧ _ = _ + count.toInt ∨
        count.toInt < 0 ∧ _ = _ + count.toInt
      omega

theorem rank_backfilled (count : Int64) : 0 ≤ count.toInt ∧
        ((backfilled count).rank : Int) = 1 + count.toInt ∨
      count.toInt < 0 ∧ ((backfilled count).rank : Int) =
          2 ^ 64 + 1 + count.toInt := by
  have value := toInt_eq count
  have below : count.toUInt64.toNat < 2 ^ 64 := count.toUInt64.toNat_lt
  have rank : (backfilled count).rank = 1 + count.toUInt64.toNat := rfl
  split at value
  · omega
  · omega

theorem signed_normal (count : UInt64) :
    (normal count).intoSigned.toInt =
      if count.toNat < 2 ^ 63 then (count.toNat : Int)
      else (count.toNat : Int) - 2 ^ 64 := by
  have value := toInt_eq count.toInt64
  rw [toUInt64_toInt64] at value
  change count.toInt64.toInt = _
  split at value
  next small =>
    rw [value, if_pos (by omega)]
  next large =>
    rw [value, if_neg (by omega)]

theorem rank_forward_normal (count : UInt64) :
    ((normal count).saturatingInc .forward).rank =
      2 ^ 64 + Nat.min (count.toNat + 1) (2 ^ 64 - 1) := by
  have moved : Nat.min (count.toNat + 1) (2 ^ 64 - 1) < 2 ^ 64 :=
    (Nat.min_le_right _ _).trans_lt (by decide)
  have value : (ofNat (Nat.min (count.toNat + 1) (2 ^ 64 - 1))).toNat =
      Nat.min (count.toNat + 1) (2 ^ 64 - 1) := toNat_ofNat_of_lt moved
  have positive : 0 < Nat.min (count.toNat + 1) (2 ^ 64 - 1) :=
    Nat.lt_min.mpr ⟨Nat.succ_pos _, by decide⟩
  have rank := rank_normal
    (ofNat (Nat.min (count.toNat + 1) (2 ^ 64 - 1)))
  rw [value] at rank
  change (normal (ofNat
    (Nat.min (count.toNat + 1) (2 ^ 64 - 1)))).rank = _
  omega

theorem rank_backward_normal (count : UInt64) :
    ((normal count).saturatingInc .backward).rank =
      if count.toNat ≤ 1 then 0 else 2 ^ 64 + (count.toNat - 1) := by
  have value : (ofNat (count.toNat - 1)).toNat = count.toNat - 1 :=
    toNat_ofNat_of_lt ((Nat.sub_le _ _).trans_lt count.toNat_lt)
  have rank := rank_normal (ofNat (count.toNat - 1))
  rw [value] at rank
  change (normal (ofNat (count.toNat - 1))).rank = _
  split
  · omega
  · omega

theorem clamp_toInt (sum : Int) : (saturatingAdd.clamp sum).toInt =
    max (-2 ^ 63) (min sum (2 ^ 63 - 1)) :=
  Int64.toInt_ofInt_of_le (le_max_left _ _)
    (max_lt (by decide) ((min_le_right _ _).trans_lt (by decide)))

def Beyond (count : PduCount) : Direction → PduCount → Prop
  | .forward, event => count < event
  | .backward, event => event < count

instance (count : PduCount) (dir : Direction) :
    DecidablePred (Beyond count dir) := fun event =>
  match dir with
  | .forward => inferInstanceAs (Decidable (count < event))
  | .backward => inferInstanceAs (Decidable (event < count))

def Given (count : PduCount) : Direction → PduCount → Prop
  | .forward, event => ¬ event.rank < (count.saturatingInc .forward).rank
  | .backward, event => ¬ (count.saturatingInc .backward).rank < event.rank

instance (count : PduCount) (dir : Direction) :
    DecidablePred (Given count dir) := fun event =>
  match dir with
  | .forward => inferInstanceAs (Decidable
      (¬ event.rank < (count.saturatingInc .forward).rank))
  | .backward => inferInstanceAs (Decidable
      (¬ (count.saturatingInc .backward).rank < event.rank))

theorem given_forward_normal (drawn : event.Drawn) (count : UInt64) :
    Given (.normal count) .forward event ↔
      (count.toNat : Int) < event.intoSigned.toInt := by
  have rank := rank_drawn drawn
  have bounded := event.intoSigned.toInt_lt
  have below := count.toNat_lt
  have added : Nat.min (count.toNat + 1) (2 ^ 64 - 1) =
      if count.toNat + 1 ≤ 2 ^ 64 - 1 then count.toNat + 1 else 2 ^ 64 - 1 :=
    Nat.min_def
  unfold Given
  rw [rank_forward_normal]
  split at added
  · omega
  · omega

theorem given_forward_backfilled (drawn : event.Drawn) (count : Int64) :
    Given (.backfilled count) .forward event ↔
      -1 ≤ count.toInt ∨ count.toInt < event.intoSigned.toInt := by
  have rank := rank_drawn drawn
  have bounded := event.intoSigned.le_toInt
  have least := count.le_toInt
  have moved := clamp_toInt (count.toInt + 1)
  have landed := rank_backfilled (saturatingAdd.clamp
    (count.toInt + 1))
  change ¬ event.rank < (backfilled
    (saturatingAdd.clamp (count.toInt + 1))).rank ↔ _
  omega

theorem given_backward_normal (drawn : event.Drawn) (count : UInt64) :
    Given (.normal count) .backward event ↔
      1 < count.toNat ∧ event.intoSigned.toInt < (count.toNat : Int) := by
  have rank := rank_drawn drawn
  have bounded := event.intoSigned.le_toInt
  have landed := rank_backward_normal count
  unfold Given
  by_cases small : count.toNat ≤ 1
  · rw [if_pos small] at landed
    omega
  · rw [if_neg small] at landed
    omega

theorem given_backward_backfilled (drawn : event.Drawn) (count : Int64) :
    Given (.backfilled count) .backward event ↔
      count.toInt ≤ 0 ∧ (event.intoSigned.toInt < count.toInt ∨
        event.intoSigned.toInt = -2 ^ 63 ∧ count.toInt = -2 ^ 63) := by
  have rank := rank_drawn drawn
  have bounded := event.intoSigned.le_toInt
  have most := count.toInt_lt
  have least := count.le_toInt
  have moved := clamp_toInt (count.toInt - 1)
  have landed := rank_backfilled (saturatingAdd.clamp
    (count.toInt - 1))
  change ¬ (backfilled
    (saturatingAdd.clamp (count.toInt - 1))).rank < event.rank ↔ _
  omega

/-- A step past the count reaches the next event, or it lands at one end of the
rows of the room and there is nothing to miss or to repeat. -/
def Steps (events : PduCount → Prop) : Direction → PduCount → Prop
  | .forward, .normal count =>
      count ≤ 0x7FFFFFFFFFFFFFFF ∨
        ∀ event, events event → ¬ normal count < event
  | .forward, .backfilled count =>
      count < -1 ∨ ∀ event, events event → backfilled count < event
  | .backward, .normal count =>
      1 < count ∧ count ≤ 0x7FFFFFFFFFFFFFFF ∨
        count ≤ 1 ∧ (∀ event, events event → ¬ event < .normal count) ∨
        0x7FFFFFFFFFFFFFFF < count ∧
          ∀ event, events event → event < normal count
  | .backward, .backfilled count =>
      Int64.minValue < count ∧ count ≤ 0 ∨
        0 < count ∧ (∀ event, events event → ¬ event < .backfilled count) ∨
        count = Int64.minValue ∧ ¬ events .min

theorem lt_iff_toInt {older newer : PduCount} : older < newer ↔
    older.intoSigned.toInt < newer.intoSigned.toInt :=
  Int64.lt_iff_toInt_lt

theorem le_max_iff (count : UInt64) :
    count ≤ 0x7FFFFFFFFFFFFFFF ↔ count.toNat < 2 ^ 63 := by
  rw [le_iff_toNat_le]
  change count.toNat ≤ 2 ^ 63 - 1 ↔ _
  omega

section

variable {events : PduCount → Prop}

theorem steps_forward_normal (drawn : ∀ event, events event → event.Drawn)
    (count : UInt64) : Steps events .forward (.normal count) ↔
      ∀ event, events event → (Given (.normal count) .forward event ↔
        Beyond (.normal count) .forward event) := by
  have value := signed_normal count
  simp only [Steps]
  rw [le_max_iff]
  by_cases small : count.toNat < 2 ^ 63
  · rw [if_pos small] at value
    refine iff_of_true (.inl small) fun event isEvent => ?_
    rw [given_forward_normal (drawn event isEvent), Beyond, lt_iff_toInt, value]
  · rw [or_iff_right small]
    refine forall₂_congr fun event isEvent => ?_
    have bounded := event.intoSigned.toInt_lt
    have given := given_forward_normal (drawn event isEvent) count
    have nothing : ¬ Given (.normal count) .forward event := by
      rw [given]
      omega
    rw [iff_false_left nothing, Beyond]

theorem steps_forward_backfilled (drawn : ∀ event, events event → event.Drawn)
    (count : Int64) : Steps events .forward (.backfilled count) ↔
      ∀ event, events event → (Given (.backfilled count) .forward event ↔
        Beyond (.backfilled count) .forward event) := by
  have lowIff : count < -1 ↔ count.toInt < -1 := Int64.lt_iff_toInt_lt
  simp only [Steps]
  rw [lowIff]
  by_cases low : count.toInt < -1
  · refine iff_of_true (.inl low) fun event isEvent => ?_
    rw [given_forward_backfilled (drawn event isEvent), Beyond, lt_iff_toInt]
    exact or_iff_right (by omega)
  · rw [or_iff_right low]
    refine forall₂_congr fun event isEvent => ?_
    have given := given_forward_backfilled (drawn event isEvent) count
    rw [iff_true_left (given.mpr (.inl (by omega))), Beyond]

theorem steps_backward_normal (drawn : ∀ event, events event → event.Drawn)
    (count : UInt64) : Steps events .backward (.normal count) ↔
      ∀ event, events event → (Given (.normal count) .backward event ↔
        Beyond (.normal count) .backward event) := by
  have value := signed_normal count
  have fewIff : count ≤ 1 ↔ count.toNat ≤ 1 := le_iff_toNat_le
  have manyIff : 1 < count ↔ ¬ count.toNat ≤ 1 :=
    lt_iff_toNat_lt.trans not_le.symm
  have aboveIff : 0x7FFFFFFFFFFFFFFF < count ↔ ¬ count.toNat < 2 ^ 63 := by
    rw [lt_iff_toNat_lt]
    change 2 ^ 63 - 1 < count.toNat ↔ _
    omega
  simp only [Steps]
  rw [le_max_iff, fewIff, manyIff, aboveIff]
  by_cases few : count.toNat ≤ 1
  · have small : count.toNat < 2 ^ 63 := by omega
    simp only [few, small, not_true_eq_false, false_and, true_and, false_or,
      or_false]
    refine forall₂_congr fun event isEvent => ?_
    have nothing : ¬ Given (.normal count) .backward event := by
      rw [given_backward_normal (drawn event isEvent)]
      omega
    rw [iff_false_left nothing, Beyond]
  · by_cases small : count.toNat < 2 ^ 63
    · rw [if_pos small] at value
      refine iff_of_true (.inl ⟨few, small⟩) fun event isEvent => ?_
      rw [given_backward_normal (drawn event isEvent), Beyond, lt_iff_toInt,
        value]
      exact and_iff_right (by omega)
    · simp only [few, small, not_false_eq_true, and_false, false_and, true_and,
        false_or]
      refine forall₂_congr fun event isEvent => ?_
      have bounded := event.intoSigned.toInt_lt
      have given := given_backward_normal (drawn event isEvent) count
      rw [iff_true_left (given.mpr ⟨by omega, by omega⟩), Beyond]

theorem eq_iff_toInt {event other : PduCount} (drawn : event.Drawn)
    (otherDrawn : other.Drawn) :
    event = other ↔ event.intoSigned.toInt = other.intoSigned.toInt := by
  constructor
  · intro same
    rw [same]
  · intro same
    rw [← fromSigned_drawn drawn, Int64.toInt_inj.mp same,
      fromSigned_drawn otherDrawn]

theorem eq_min_iff {event : PduCount} (drawn : event.Drawn) :
    event = .min ↔ event.intoSigned.toInt = -2 ^ 63 :=
  eq_iff_toInt drawn (by decide)

theorem steps_backward_backfilled
    (drawn : ∀ event, events event → event.Drawn) (count : Int64) :
    Steps events .backward (.backfilled count) ↔
      ∀ event, events event → (Given (.backfilled count) .backward event ↔
        Beyond (.backfilled count) .backward event) := by
  have bounded := count.le_toInt
  have lowIff : count ≤ 0 ↔ count.toInt ≤ 0 := Int64.le_iff_toInt_le
  have highIff : 0 < count ↔ 0 < count.toInt := Int64.lt_iff_toInt_lt
  have leastIff : count = Int64.minValue ↔ count.toInt = -2 ^ 63 :=
    Int64.toInt_inj.symm
  have aboveIff : Int64.minValue < count ↔ -2 ^ 63 < count.toInt :=
    Int64.lt_iff_toInt_lt
  simp only [Steps]
  rw [lowIff, highIff, leastIff, aboveIff]
  by_cases high : 0 < count.toInt
  · have below : ¬ count.toInt ≤ 0 := by omega
    have apart : ¬ count.toInt = -2 ^ 63 := by omega
    simp only [below, apart, high, and_false, false_and, true_and, false_or,
      or_false]
    refine forall₂_congr fun event isEvent => ?_
    have nothing : ¬ Given (.backfilled count) .backward event := by
      rw [given_backward_backfilled (drawn event isEvent)]
      omega
    rw [iff_false_left nothing, Beyond]
  · have below : count.toInt ≤ 0 := by omega
    by_cases least : count.toInt = -2 ^ 63
    · have notAbove : ¬ -2 ^ 63 < count.toInt := by omega
      have notHigh : ¬ (0 : Int) < -2 ^ 63 := by decide
      simp only [least, notHigh, lt_irrefl, false_and, true_and, false_or]
      constructor
      · intro absent event isEvent
        refine iff_of_false ?_ ?_
        · rw [given_backward_backfilled (drawn event isEvent)]
          rintro ⟨_, less | ⟨isLeast, _⟩⟩
          · have lowest := event.intoSigned.le_toInt
            omega
          · exact absent ((eq_min_iff (drawn event isEvent)).mpr isLeast ▸
              isEvent)
        · rw [Beyond, lt_iff_toInt]
          have lowest := event.intoSigned.le_toInt
          change ¬ event.intoSigned.toInt < count.toInt
          omega
      · intro agree isEvent
        have given := (given_backward_backfilled (drawn .min isEvent) count).mpr
          ⟨below, .inr ⟨rfl, least⟩⟩
        have beyond := (agree .min isEvent).mp given
        rw [Beyond, lt_iff_toInt] at beyond
        change -2 ^ 63 < count.toInt at beyond
        omega
    · refine iff_of_true (.inl ⟨by omega, below⟩) fun event isEvent => ?_
      rw [given_backward_backfilled (drawn event isEvent), Beyond,
        lt_iff_toInt, and_iff_right below]
      exact or_iff_left fun both => least both.2

theorem steps_iff (drawn : ∀ event, events event → event.Drawn)
    (dir : Direction) (count : PduCount) : Steps events dir count ↔
      ∀ event, events event →
        (Given count dir event ↔ Beyond count dir event) := by
  cases dir with
  | forward =>
      cases count with
      | normal count => exact steps_forward_normal drawn count
      | backfilled count => exact steps_forward_backfilled drawn count
  | backward =>
      cases count with
      | normal count => exact steps_backward_normal drawn count
      | backfilled count => exact steps_backward_backfilled drawn count

end

theorem beyond_asymm {count other : PduCount} {dir : Direction}
    (beyond : Beyond count dir other) : ¬ Beyond other dir count := by
  cases dir with
  | forward | backward => exact Int64.lt_asymm beyond

theorem beyond_trans {count middle other : PduCount} {dir : Direction}
    (first : Beyond count dir middle) (second : Beyond middle dir other) :
    Beyond count dir other := by
  cases dir with
  | forward => exact Int64.lt_trans first second
  | backward => exact Int64.lt_trans second first

theorem rank_lt_of_lt {older newer : PduCount} (olderDrawn : older.Drawn)
    (newerDrawn : newer.Drawn) (less : older < newer) :
    older.rank < newer.rank := by
  have olderRank := rank_drawn olderDrawn
  have newerRank := rank_drawn newerDrawn
  rw [lt_iff_toInt] at less
  omega

theorem given_of_beyond {count middle other : PduCount} {dir : Direction}
    (middleDrawn : middle.Drawn) (otherDrawn : other.Drawn)
    (given : Given count dir middle) (beyond : Beyond middle dir other) :
    Given count dir other := by
  cases dir with
  | forward =>
      have less := rank_lt_of_lt middleDrawn otherDrawn beyond
      exact fun below => given (less.trans below)
  | backward =>
      have less := rank_lt_of_lt otherDrawn middleDrawn beyond
      exact fun above => given (above.trans less)

theorem nested (count : PduCount) (dir : Direction) :
    (∀ event : PduCount, event.Drawn → Given count dir event →
      Beyond count dir event) ∨
    ∀ event : PduCount, event.Drawn → Beyond count dir event →
      Given count dir event := by
  cases dir with
  | forward =>
      cases count with
      | normal count =>
          left
          intro event drawn given
          have value := signed_normal count
          have bounded := event.intoSigned.toInt_lt
          have above := (given_forward_normal drawn count).mp given
          rw [if_pos (by omega)] at value
          rw [Beyond, lt_iff_toInt, value]
          exact above
      | backfilled count =>
          right
          intro event drawn beyond
          rw [Beyond, lt_iff_toInt] at beyond
          exact (given_forward_backfilled drawn count).mpr (.inr beyond)
  | backward =>
      cases count with
      | normal count =>
          have value := signed_normal count
          by_cases small : count.toNat < 2 ^ 63
          · left
            intro event drawn given
            rw [if_pos small] at value
            rw [Beyond, lt_iff_toInt, value]
            exact ((given_backward_normal drawn count).mp given).2
          · right
            intro event drawn _
            have bounded := event.intoSigned.toInt_lt
            exact (given_backward_normal drawn count).mpr ⟨by omega, by omega⟩
      | backfilled count =>
          by_cases high : 0 < count.toInt
          · left
            intro event drawn given
            have low := ((given_backward_backfilled drawn count).mp given).1
            exact absurd low (by omega)
          · right
            intro event drawn beyond
            rw [Beyond, lt_iff_toInt] at beyond
            exact (given_backward_backfilled drawn count).mpr
              ⟨by omega, .inl beyond⟩

end Landing

namespace TimelineData

variable {data : TimelineData} {room : ShortRoomId} {roomId : RoomId}

def HasCount (data : TimelineData) (room : ShortRoomId) (count : PduCount) :
    Prop :=
  ∃ json, data.Stored room (count, json)

theorem HasCount.drawn {count : PduCount} (has : data.HasCount room count) :
    count.Drawn := by
  obtain ⟨json, stored⟩ := has
  exact stored.drawn

theorem forall_events_iff {holds : PduCount → Prop} :
    (∀ event ∈ data.events room, holds event.1) ↔
      ∀ count, data.HasCount room count → holds count := by
  constructor
  · rintro all count ⟨json, stored⟩
    exact all (count, json) (mem_events.mpr stored)
  · intro all event member
    exact all event.1 ⟨event.2, mem_events.mp member⟩

def items (data : TimelineData) (room : ShortRoomId) :
    List (PduCount × Pdu) :=
  (data.events room).filterMap (fun event =>
    (data.readPdu event.2).map (Prod.mk event.1))

theorem items_ascending :
    (data.items room).Pairwise (fun item later => item.1 < later.1) := by
  unfold items
  rw [pairwise_filterMap]
  refine events_ascending.imp ?_
  intro event later less item isItem other isOther
  obtain ⟨_, _, rfl⟩ := Option.map_eq_some_iff.mp isItem
  obtain ⟨_, _, rfl⟩ := Option.map_eq_some_iff.mp isOther
  exact less

theorem mem_items {item : PduCount × Pdu} : item ∈ data.items room ↔
    ∃ json, data.Stored room (item.1, json) ∧
      data.readPdu json = some item.2 := by
  unfold items
  simp only [mem_filterMap, Option.map_eq_some_iff, mem_events]
  constructor
  · rintro ⟨event, stored, pdu, read, rfl⟩
    exact ⟨event.2, stored, read⟩
  · rintro ⟨json, stored, read⟩
    exact ⟨(item.1, json), stored, item.2, read, rfl⟩

theorem filterMap_readEvent (wanted : PduCount → Bool) :
    (((data.events room).filter (fun event => wanted event.1)).map
        data.readEvent).filterMap Except.toOption =
      (data.items room).filter (fun item => wanted item.1) := by
  unfold items
  rw [filterMap_map, filterMap_filter, filter_filterMap]
  refine filterMap_congr (fun event _ => ?_)
  unfold readEvent
  cases read : data.readPdu event.2 with
  | none => simp [read, Except.toOption]
  | some pdu =>
      cases isWanted : wanted event.1 <;>
        simp [read, isWanted, Except.toOption, Option.filter]

theorem lists_given_iff (count : PduCount) (dir : Direction) :
    data.Lists room (Landing.Beyond count dir)
        (fun event later => event < later)
        (((data.events room).filter (fun event =>
          decide (Landing.Given count dir event.1))).map data.readEvent) ↔
      Landing.Steps (data.HasCount room) dir count := by
  have nested : (∀ event ∈ data.events room,
        decide (Landing.Given count dir event.1) = true →
        decide (Landing.Beyond count dir event.1) = true) ∨
      ∀ event ∈ data.events room,
        decide (Landing.Beyond count dir event.1) = true →
        decide (Landing.Given count dir event.1) = true := by
    simp only [decide_eq_true_iff]
    refine (Landing.nested count dir).imp ?_ ?_
    · exact fun narrow event member =>
        narrow event.1 (mem_events.mp member).drawn
    · exact fun wide event member => wide event.1 (mem_events.mp member).drawn
  rw [lists_iff, map_filter_eq_iff data.readEvent nested,
    Landing.steps_iff (fun _ has => has.drawn) dir count]
  simp only [decide_eq_true_iff]
  exact @forall_events_iff data room (fun event =>
    Landing.Given count dir event ↔ Landing.Beyond count dir event)

section

variable (short : data.roomidShortroomid roomId = some room) (count : PduCount)
include short count

theorem pdus_eq_given : data.pdus roomId count =
      ((data.events room).filter (fun event =>
        decide (Landing.Given count .forward event.1))).map data.readEvent := by
  have given : (fun event : PduCount × Json =>
      !decide (event.1.rank < (count.saturatingInc .forward).rank)) =
        fun event => decide (Landing.Given count .forward event.1) := by
    funext event
    exact decide_not.symm
  rw [pdus_eq count short, given]

theorem pdusRev_eq_given : (data.pdusRev roomId count).reverse =
      ((data.events room).filter (fun event =>
        decide (Landing.Given count .backward event.1))).map
          data.readEvent := by
  have given : (fun event : PduCount × Json =>
      !decide ((count.saturatingInc .backward).rank < event.1.rank)) =
        fun event => decide (Landing.Given count .backward event.1) := by
    funext event
    exact decide_not.symm
  rw [pdusRev_eq count short, given]

theorem pdus_exact_iff : data.Lists room (fun event => count < event)
        (fun event later => event < later) (data.pdus roomId count) ↔
      Landing.Steps (data.HasCount room) .forward count := by
  rw [pdus_eq_given short count]
  exact lists_given_iff count .forward

theorem pdusRev_exact_iff : data.Lists room (fun event => event < count)
        (fun event earlier => earlier < event) (data.pdusRev roomId count) ↔
      Landing.Steps (data.HasCount room) .backward count := by
  rw [lists_reverse_iff, pdusRev_eq_given short count]
  exact lists_given_iff count .backward

end

/-- The ranges of a room at a count are exact if and only if the step past the
count reaches the next event. -/
theorem exactAt_iff_steps (data : TimelineData) (roomId : RoomId)
    (count : PduCount) :
    data.ExactAt roomId count ↔
      ∀ room, data.roomidShortroomid roomId = some room →
        ∀ dir, Landing.Steps (data.HasCount room) dir count := by
  refine forall₂_congr fun room short => ?_
  rw [pdus_exact_iff short, pdusRev_exact_iff short]
  constructor
  · intro both dir
    cases dir with
    | forward => exact both.1
    | backward => exact both.2
  · exact fun all => ⟨all .forward, all .backward⟩

def oneOfEach : TimelineData where
  readPdu := fun _ => none
  roomidShortroomid := fun _ => some 1
  pduidPdu := (PduTable.empty.put ⟨1, .backfilled (-1)⟩ (by decide) .null).put
    ⟨1, .normal 1⟩ (by decide) .null

theorem oneOfEach_inexact :
    ¬ oneOfEach.ExactAt "!r:h" (.backfilled (-1)) ∧
      ¬ oneOfEach.ExactAt "!r:h" (.normal 1) := by
  have backfilled : oneOfEach.HasCount 1 (.backfilled (-1)) :=
    ⟨.null, SortedTable.mem_put.mpr (.inr
      ⟨SortedTable.mem_put.mpr (.inl rfl), by decide⟩)⟩
  constructor
  · intro exact
    rcases (pdus_exact_iff rfl _).mp (exact 1 rfl).1 with low | after
    · exact absurd low (by decide)
    · exact absurd (after _ backfilled) (by decide)
  · intro exact
    rcases (pdusRev_exact_iff rfl _).mp (exact 1 rfl).2 with
      many | ⟨_, none⟩ | ⟨above, _⟩
    · exact absurd many.1 (by decide)
    · exact none _ backfilled (by decide)
    · exact absurd above (by decide)

end TimelineData

/-! Events that are fetched from other servers when a reader reaches the first
one of a room.  Their counts are negative, and lower than all before. -/

namespace TimelineData

def putPdu (data : TimelineData) (id : PduId)
    (drawn : id.shorteventid.Drawn) (json : Json) : TimelineData :=
  { data with pduidPdu := data.pduidPdu.put id drawn json }

section

variable {data : TimelineData} {room : ShortRoomId} {id : PduId}
  {drawn : id.shorteventid.Drawn} {json : Json} {event : PduCount × Json}

theorem raw_bytes_inj {one other : PduId}
    (same : one.raw.bytes = other.raw.bytes) : one = other := by
  refine PduId.raw_injective ?_
  have parsed := parse_raw one
  rw [same, parse_raw] at parsed
  exact (Option.some.inj parsed).symm

theorem stored_putPdu_iff : (data.putPdu id drawn json).Stored room event ↔
      PduId.mk room event.1 = id ∧ event.2 = json ∨
        data.Stored room event ∧ PduId.mk room event.1 ≠ id := by
  refine SortedTable.mem_put.trans (or_congr ?_ (and_congr_right fun _ => ?_))
  · rw [Prod.mk.injEq]
    refine and_congr_left fun _ => ⟨raw_bytes_inj, fun same => ?_⟩
    exact congrArg (fun id => id.raw.bytes) same
  · refine not_congr ⟨raw_bytes_inj, fun same => ?_⟩
    exact congrArg (fun id => id.raw.bytes) same

theorem events_putPdu (lowest : ∀ count,
    data.HasCount id.shortroomid count → id.shorteventid < count) :
    (data.putPdu id drawn json).events room =
      if id.shortroomid = room then
        (id.shorteventid, json) :: data.events room
      else data.events room := by
  have ordered : (if id.shortroomid = room then
      (id.shorteventid, json) :: data.events room
      else data.events room).Pairwise (fun event later =>
        event.1 < later.1) := by
    split
    next same =>
      refine pairwise_cons.mpr ⟨fun other member => ?_, events_ascending⟩
      refine lowest other.1 ⟨other.2, ?_⟩
      rw [same]
      exact mem_events.mp member
    · exact events_ascending
  refine eq_of_ordered_of_mem_iff (fun event => lt_irrefl event.1)
    (fun _ _ => lt_asymm) events_ascending ordered (fun event => ?_)
  rw [mem_events, stored_putPdu_iff]
  obtain ⟨ownRoom, ownCount⟩ := id
  by_cases same : ownRoom = room
  · subst same
    have apart : data.Stored ownRoom event →
        PduId.mk ownRoom event.1 ≠ PduId.mk ownRoom ownCount := by
      intro stored clash
      refine lt_irrefl ownCount (lowest ownCount ⟨event.2, ?_⟩)
      rw [← (PduId.mk.inj clash).2]
      exact stored
    rw [if_pos rfl, mem_cons, mem_events, and_iff_left_of_imp apart,
      Prod.ext_iff]
    simp
  · have apart : PduId.mk room event.1 ≠ PduId.mk ownRoom ownCount :=
      fun clash => same (PduId.mk.inj clash).1.symm
    rw [if_neg same, mem_events]
    simp [apart]

end

def roomExists (data : TimelineData) (roomId : RoomId) : Bool :=
  match data.roomidShortroomid roomId with
  | none => false
  | some room => data.pduidPdu.table.rows.any (fun row =>
      (u64Bytes room).isPrefixOf row.1)

theorem roomExists_iff {data : TimelineData} {roomId : RoomId} :
    data.roomExists roomId = true ↔
      ∃ room, data.roomidShortroomid roomId = some room ∧
        data.events room ≠ [] := by
  unfold roomExists
  cases short : data.roomidShortroomid roomId with
  | none => simp
  | some room =>
      simp only [any_eq_true, Option.some.injEq, exists_eq_left']
      constructor
      · rintro ⟨row, member, begins⟩
        obtain ⟨⟨own, count⟩, _, bytes⟩ := data.pduidPdu.drawn row member
        rw [ isPrefixOf_iff_prefix, bytes] at begins
        obtain rfl : room = own := u64Bytes_prefix_iff.mp begins
        refine ne_nil_of_mem (a := (count, row.2)) (mem_events.mpr ?_)
        unfold Stored
        rw [← bytes]
        exact member
      · intro stored
        obtain ⟨event, rest, split⟩ := exists_cons_of_ne_nil stored
        have listed : event ∈ data.events room := by
          rw [split]
          exact mem_cons_self
        refine ⟨_, mem_events.mp listed, ?_⟩
        rw [ isPrefixOf_iff_prefix]
        exact room_prefix_raw event.1

end TimelineData

open TimelineData

structure Backlog where
  data : TimelineData
  counter : Nat
  readable : ∀ row ∈ data.pduidPdu.table, (data.readPdu row.2).isSome = true
  counted : ∀ room count, data.HasCount room count →
    -(counter : Int) ≤ count.intoSigned.toInt ∧ -2 ^ 63 < count.intoSigned.toInt

/-- An event from another server, and how many counts are drawn before its
own. -/
structure BackfilledPdu where
  roomId : RoomId
  drawn : Nat
  json : Json

/-- What a reader who reaches the first event meets: whether no one is there to
ask, and the events that come. -/
structure BackfillAnswer where
  alone : Bool
  pdus : List BackfilledPdu

namespace Backlog

variable (backlog : Backlog)

def draw (drawn : Nat) : Backlog :=
  { backlog with
    counter := backlog.counter + drawn
    counted := by
      intro room count has
      obtain ⟨above, notLeast⟩ := backlog.counted room count has
      exact ⟨by omega, notLeast⟩ }

def nextCount : Int64 :=
  Int64.ofInt (-(backlog.counter + 1 : Nat))

theorem nextCount_toInt {backlog : Backlog}
    (fits : backlog.counter + 1 < 2 ^ 63) :
    backlog.nextCount.toInt = -(backlog.counter + 1 : Nat) :=
  Int64.toInt_ofInt_of_le (by omega) (by omega)

theorem drawn_nextCount {backlog : Backlog}
    (fits : backlog.counter + 1 < 2 ^ 63) :
    (backfilled backlog.nextCount).Drawn := by
  change backlog.nextCount < 0
  rw [Int64.lt_iff_toInt_lt, nextCount_toInt fits]
  change -((backlog.counter + 1 : Nat) : Int) < 0
  omega

def insert (room : ShortRoomId) (json : Json)
    (readable : (backlog.data.readPdu json).isSome = true)
    (fits : backlog.counter + 1 < 2 ^ 63) : Backlog where
  data := backlog.data.putPdu ⟨room, .backfilled backlog.nextCount⟩
    (drawn_nextCount fits) json
  counter := backlog.counter + 1
  readable := by
    intro row member
    rcases SortedTable.mem_put.mp member with new | old
    · rw [new]
      exact readable
    · exact backlog.readable row old.1
  counted := by
    rintro other count ⟨stored, has⟩
    rcases TimelineData.stored_putPdu_iff.mp has with new | old
    · obtain rfl : count = _ := (PduId.mk.inj new.1).2
      change _ ≤ backlog.nextCount.toInt ∧ _ < backlog.nextCount.toInt
      rw [nextCount_toInt fits]
      omega
    · obtain ⟨above, notLeast⟩ := backlog.counted other count ⟨stored, old.1⟩
      exact ⟨by omega, notLeast⟩

def backfillPdu (pdu : BackfilledPdu) : Backlog :=
  let backlog := backlog.draw pdu.drawn
  if readable : (backlog.data.readPdu pdu.json).isSome = true then
    match backlog.data.roomidShortroomid pdu.roomId with
    | none => backlog
    | some room =>
        if fits : backlog.counter + 1 < 2 ^ 63 then
          backlog.insert room pdu.json readable fits
        else backlog.draw 1
  else backlog

def firstItemInRoom (roomId : RoomId) : Except ReadError (PduCount × Pdu) :=
  match backlog.data.pdus roomId .min with
  | [] => .error (.roomNotFound roomId)
  | item :: _ => item

def backfillIfRequired (roomId : RoomId) (from_ : PduCount)
    (answer : BackfillAnswer) : Except ReadError Backlog :=
  if answer.alone then .ok backlog
  else
    match backlog.firstItemInRoom roomId with
    | .error _ => .error (.panic "Room is not empty")
    | .ok first =>
        if first.1 < from_ then .ok backlog
        else .ok (answer.pdus.foldl backfillPdu backlog)

variable {backlog after : Backlog} {room : ShortRoomId} {roomId : RoomId}
  {from_ : PduCount} {answer : BackfillAnswer}

/-- The later state has the events of the earlier one behind some new ones. -/
structure Extends (room : ShortRoomId) (before after : Backlog)
    (most : Nat) : Prop where
  readPdu : after.data.readPdu = before.data.readPdu
  roomidShortroomid :
    after.data.roomidShortroomid = before.data.roomidShortroomid
  events : ∃ added, after.data.events room =
    added ++ before.data.events room ∧ added.length ≤ most

theorem Extends.refl (room : ShortRoomId) (backlog : Backlog) :
    Extends room backlog backlog 0 :=
  ⟨rfl, rfl, [], rfl, le_rfl⟩

theorem Extends.trans {before middle after : Backlog} {first second : Nat}
    (begins : Extends room before middle first)
    (ends : Extends room middle after second) :
    Extends room before after (first + second) := by
  obtain ⟨added, extended, few⟩ := begins.events
  obtain ⟨more, extendedMore, fewMore⟩ := ends.events
  refine ⟨ends.readPdu.trans begins.readPdu,
    ends.roomidShortroomid.trans begins.roomidShortroomid, more ++ added,
    ?_, ?_⟩
  · rw [extendedMore, extended, append_assoc]
  · rw [length_append]
    omega

theorem Extends.mono {before after : Backlog} {most wider : Nat}
    (extends_ : Extends room before after most) (le : most ≤ wider) :
    Extends room before after wider := by
  obtain ⟨added, extended, few⟩ := extends_.events
  exact ⟨extends_.readPdu, extends_.roomidShortroomid, added, extended,
    few.trans le⟩

theorem draw_extends (drawn : Nat) :
    Extends room backlog (backlog.draw drawn) 0 :=
  ⟨rfl, rfl, [], rfl, le_rfl⟩

theorem nextCount_lt (fits : backlog.counter + 1 < 2 ^ 63)
    {count : PduCount} (has : backlog.data.HasCount room count) :
    backfilled backlog.nextCount < count := by
  have above := (backlog.counted room count has).1
  have next := nextCount_toInt fits
  rw [Landing.lt_iff_toInt]
  change backlog.nextCount.toInt < _
  omega

theorem insert_extends {own : ShortRoomId} {json : Json}
    (readable : (backlog.data.readPdu json).isSome = true)
    (fits : backlog.counter + 1 < 2 ^ 63) :
    Extends room backlog (backlog.insert own json readable fits) 1 := by
  have events : (backlog.insert own json readable fits).data.events room =
      if own = room then (.backfilled backlog.nextCount, json) ::
        backlog.data.events room
      else backlog.data.events room :=
    TimelineData.events_putPdu (fun _ has => nextCount_lt fits has)
  refine ⟨rfl, rfl, ?_⟩
  by_cases same : own = room
  · rw [if_pos same] at events
    exact ⟨[(.backfilled backlog.nextCount, json)], events, le_rfl⟩
  · rw [if_neg same] at events
    exact ⟨[], events, Nat.zero_le 1⟩

theorem backfillPdu_extends (pdu : BackfilledPdu) :
    Extends room backlog (backlog.backfillPdu pdu) 1 := by
  have drawn : Extends room backlog (backlog.draw pdu.drawn) 0 :=
    draw_extends pdu.drawn
  unfold backfillPdu
  simp only
  split
  · split
    · exact drawn.mono (Nat.zero_le 1)
    · split
      · exact drawn.trans (insert_extends _ _)
      · exact (drawn.trans (draw_extends 1)).mono (Nat.zero_le 1)
  · exact drawn.mono (Nat.zero_le 1)

theorem backfillPdus_extends (pdus : List BackfilledPdu) :
    Extends room backlog (pdus.foldl backfillPdu backlog) pdus.length := by
  induction pdus generalizing backlog with
  | nil => exact Extends.refl room backlog
  | cons pdu rest ih =>
      refine ((backfillPdu_extends pdu).trans ih).mono ?_
      rw [length_cons]
      omega

theorem backfillIfRequired_extends
    (result : backlog.backfillIfRequired roomId from_ answer = .ok after) :
    Extends room backlog after answer.pdus.length := by
  unfold backfillIfRequired at result
  split at result
  · cases result
    exact (Extends.refl room backlog).mono (Nat.zero_le _)
  · split at result
    · cases result
    · split at result
      · cases result
        exact (Extends.refl room backlog).mono (Nat.zero_le _)
      · cases result
        exact backfillPdus_extends answer.pdus

def items (backlog : Backlog) (room : ShortRoomId) : List (PduCount × Pdu) :=
  backlog.data.items room

def reading (backlog : Backlog) (room : ShortRoomId) :
    Direction → List (PduCount × Pdu)
  | .forward => backlog.items room
  | .backward => (backlog.items room).reverse

def range (backlog : Backlog) (roomId : RoomId) (dir : Direction)
    (from_ : PduCount) : List (PduCount × Pdu) :=
  match dir with
  | .forward => (backlog.data.pdus roomId from_).filterMap Except.toOption
  | .backward => (backlog.data.pdusRev roomId from_).filterMap Except.toOption

theorem items_ascending (backlog : Backlog) (room : ShortRoomId) :
    (backlog.items room).Pairwise (fun item later => item.1 < later.1) :=
  TimelineData.items_ascending

theorem hasCount_of_mem_items {item : PduCount × Pdu}
    (member : item ∈ backlog.items room) :
    backlog.data.HasCount room item.1 := by
  obtain ⟨json, stored, _⟩ := mem_items.mp member
  exact ⟨json, stored⟩

theorem Extends.items {before : Backlog} {most : Nat}
    (extends_ : Extends room before after most) :
    ∃ added, after.items room = added ++ before.items room ∧
      added.length ≤ most := by
  obtain ⟨added, extended, few⟩ := extends_.events
  refine ⟨added.filterMap (fun event =>
    (before.data.readPdu event.2).map (Prod.mk event.1)), ?_, ?_⟩
  · unfold Backlog.items TimelineData.items
    rw [extended, extends_.readPdu, filterMap_append]
  · exact (length_filterMap_le _ added).trans few

theorem range_eq (short : backlog.data.roomidShortroomid roomId = some room)
    (dir : Direction) (from_ : PduCount) :
    backlog.range roomId dir from_ = (backlog.reading room dir).filter
      (fun item => decide (Landing.Given from_ dir item.1)) := by
  cases dir with
  | forward =>
      unfold range reading
      rw [pdus_eq_given short from_]
      exact filterMap_readEvent (fun event =>
        decide (Landing.Given from_ .forward event))
  | backward =>
      unfold range reading
      rw [← reverse_reverse (backlog.data.pdusRev roomId from_),
        pdusRev_eq_given short from_, filterMap_reverse,
        filter_reverse]
      refine congrArg reverse ?_
      exact filterMap_readEvent (fun event =>
        decide (Landing.Given from_ .backward event))

theorem item_of_event {event : PduCount × Json}
    (listed : event ∈ backlog.data.events room) :
    ∃ pdu, backlog.data.readEvent event = .ok (event.1, pdu) := by
  have readable := backlog.readable _ (TimelineData.mem_events.mp listed)
  obtain ⟨pdu, read⟩ := Option.isSome_iff_exists.mp readable
  refine ⟨pdu, ?_⟩
  unfold readEvent
  rw [read]

theorem firstItemInRoom_ok
    (short : backlog.data.roomidShortroomid roomId = some room)
    (stored : backlog.data.events room ≠ []) :
    ∃ first, backlog.firstItemInRoom roomId = .ok first := by
  have all : (backlog.data.events room).filter (fun event =>
      decide (Landing.Given .min .forward event.1)) =
        backlog.data.events room := by
    refine filter_eq_self.mpr (fun event member => decide_eq_true ?_)
    have listed := TimelineData.mem_events.mp member
    have above := (backlog.counted room event.1 ⟨event.2, listed⟩).2
    refine (Landing.given_forward_backfilled listed.drawn _).mpr (.inr ?_)
    change -2 ^ 63 < _
    exact above
  obtain ⟨first, rest, split⟩ := exists_cons_of_ne_nil stored
  have listed : first ∈ backlog.data.events room := by
    rw [split]
    exact mem_cons_self
  obtain ⟨pdu, read⟩ := item_of_event listed
  refine ⟨(first.1, pdu), ?_⟩
  unfold firstItemInRoom
  rw [pdus_eq_given short, all, split, map_cons, read]

/-- The room of a reader has events, so that its backfill does not panic. -/
theorem backfillIfRequired_ok (from_ : PduCount) (answer : BackfillAnswer)
    (short : backlog.data.roomidShortroomid roomId = some room)
    (stored : backlog.data.events room ≠ []) :
    ∃ after, backlog.backfillIfRequired roomId from_ answer = .ok after := by
  obtain ⟨first, isFirst⟩ := firstItemInRoom_ok short stored
  unfold backfillIfRequired
  rw [isFirst]
  simp only
  split
  · exact ⟨_, rfl⟩
  · split
    · exact ⟨_, rfl⟩
    · exact ⟨_, rfl⟩

end Backlog

end ArcanaServer.Timeline
