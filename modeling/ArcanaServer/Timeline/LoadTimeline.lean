import ArcanaServer.Timeline.RangeEnds

namespace ArcanaServer.Timeline

open Library ArcanaServer.Matrix List Landing PduCount

/-! The newest events of a room between two counts. -/

structure TimelinePdus where
  pdus : List (PduCount × Pdu)
  limited : Bool

def TimelinePdus.default : TimelinePdus where
  pdus := []
  limited := false

inductive LoadError where
  | database (failedToFetchEnd : ReadError)

def takeTimeline (pduStream : List (PduCount × Pdu)) (limit : Nat) :
    TimelinePdus where
  pdus := (pduStream.take limit).reverse
  limited := (pduStream.drop limit).head?.isSome

namespace TimelineData

variable (data : TimelineData) (roomId : RoomId)

def lastTimelineCount : Except ReadError PduCount :=
  match (data.pdusRev roomId .max).head? with
  | some (.error error) => .error error
  | some (.ok (.normal count, _)) => .ok (.normal count)
  | some (.ok (.backfilled _, _)) => .ok .max
  | none => .ok .max

/-- The events that can be read, up to the end of the range. -/
def pdusUpTo (ending : Option PduCount) : List (PduCount × Pdu) :=
  (data.pdusRev roomId
    ((ending.map (fun count => count.saturatingAdd 1)).getD .max)).filterMap
      Except.toOption

def loadTimeline (starting ending : Option PduCount) (limit : Nat) :
    Except LoadError TimelinePdus :=
  match starting with
  | none => .ok (takeTimeline (data.pdusUpTo roomId ending) limit)
  | some start =>
      match data.lastTimelineCount roomId with
      | .error error => .error (.database error)
      | .ok last =>
          if start < last then
            .ok (takeTimeline ((data.pdusUpTo roomId ending).takeWhile
              (fun pdu => start < pdu.1)) limit)
          else .ok .default

section

variable (room : ShortRoomId) (starting ending : Option PduCount)

def HasPdu (item : PduCount × Pdu) : Prop :=
  ∃ json, data.Stored room (item.1, json) ∧ data.readPdu json = some item.2

def Within (count : PduCount) : Prop :=
  (∀ start ∈ starting, start < count) ∧ ∀ last ∈ ending, ¬ last < count

/-- The timeline has the last events of the range, and it is limited if there
are more. -/
def Shows (limit : Nat) (timeline : TimelinePdus) : Prop :=
  ∃ range : List (PduCount × Pdu),
    range.Pairwise (fun pdu later => pdu.1 < later.1) ∧
    (∀ item, item ∈ range ↔
      data.HasPdu room item ∧ Within starting ending item.1) ∧
    timeline.pdus = range.drop (range.length - limit) ∧
    (timeline.limited = true ↔ limit < range.length)

def LoadsExactly (limit : Nat) : Prop :=
  ∃ timeline, data.loadTimeline roomId starting ending limit = .ok timeline ∧
    data.Shows room starting ending limit timeline

/-- An event with the greatest count is not looked for. -/
def Newest (event : PduCount × Json) : Prop :=
  data.Stored room event ∧ event.1 ≠ .max ∧ ∀ other,
    data.Stored room other → other.1 ≠ .max → other ≠ event → other.1 < event.1

def CaughtUp (start : PduCount) : Prop :=
  ∃ count json, data.Newest room (.normal count, json) ∧ ¬ start < .normal count

/-- The end of the range, as the rows are ordered. -/
def UpTo : Option PduCount → PduCount → Prop
  | none, count => count ≠ .max
  | some last, count => ¬ last.rank < count.rank

/-- What the code comes to. -/
def Reached (count : PduCount) : Prop :=
  (∀ start ∈ starting, start < count ∧ ¬ data.CaughtUp room start) ∧
    UpTo ending count

structure FindsRange (limit : Nat) : Prop where
  readable : starting.isSome → ∀ event, data.Newest room event →
    (data.readPdu event.2).isSome
  same : (∀ item, data.HasPdu room item →
      (data.Reached room starting ending item.1 ↔
        Within starting ending item.1)) ∨
    limit = 0 ∧ (∃ item, data.HasPdu room item ∧
        data.Reached room starting ending item.1) ∧
      ∃ item, data.HasPdu room item ∧ Within starting ending item.1

end

end TimelineData

section

variable {α : Type} {left right whole : List α} {limit : Nat}

theorem lasts_eq_iff_of_begins (distinct : right.Nodup)
    (starts : left <+: right) :
    (left.drop (left.length - limit) = right.drop (right.length - limit) ∧
        (limit < left.length ↔ limit < right.length)) ↔
      left = right ∨ limit = 0 ∧ left ≠ [] ∧ right ≠ [] := by
  obtain ⟨rest, rfl⟩ := starts
  rcases eq_nil_or_concat rest with rfl | ⟨init, last, rfl⟩
  · simp
  · rw [concat_eq_append] at distinct ⊢
    have differs : left ≠ left ++ (init ++ [last]) := fun same => by
      simpa using congrArg length same
    rw [or_iff_right differs]
    cases limit with
    | zero => simp [length_pos_iff]
    | succ limit =>
        refine iff_of_false (fun ⟨same, _⟩ => ?_) (fun ⟨zero, _⟩ => by cases zero)
        have isLast : last ∈ left := by
          refine mem_of_mem_drop (i := left.length - (limit + 1)) ?_
          rw [same, ← append_assoc, drop_append_of_le_length (by
            simp only [length_append, length_singleton]
            omega)]
          exact mem_append_right _ (mem_singleton_self last)
        exact disjoint_of_nodup_append distinct isLast
          (mem_append_right _ (mem_singleton_self last))

theorem lasts_eq_iff (distinct : whole.Nodup) (leftStarts : left <+: whole)
    (rightStarts : right <+: whole) :
    (left.drop (left.length - limit) = right.drop (right.length - limit) ∧
        (limit < left.length ↔ limit < right.length)) ↔
      left = right ∨ limit = 0 ∧ left ≠ [] ∧ right ≠ [] := by
  rcases prefix_or_prefix_of_prefix leftStarts rightStarts with starts | starts
  · exact lasts_eq_iff_of_begins (distinct.sublist rightStarts.sublist) starts
  · have same := @lasts_eq_iff_of_begins _ right left limit
      (distinct.sublist leftStarts.sublist) starts
    rw [eq_comm, Iff.comm (a := limit < _), same, eq_comm,
      and_comm (a := right ≠ [])]

theorem takeTimeline_reverse (pdus : List (PduCount × Pdu)) :
    (takeTimeline pdus.reverse limit).pdus = pdus.drop (pdus.length - limit) ∧
      ((takeTimeline pdus.reverse limit).limited = true ↔
        limit < pdus.length) := by
  unfold takeTimeline
  refine ⟨?_, ?_⟩
  · rw [reverse_take, reverse_reverse, length_reverse]
  · simp

end

namespace TimelineData

variable {data : TimelineData} {room : ShortRoomId} {roomId : RoomId}
  {starting ending : Option PduCount} {limit : Nat}

/-- The events after the start. -/
def after (data : TimelineData) (room : ShortRoomId)
    (starting : Option PduCount) : List (PduCount × Pdu) :=
  (data.items room).filter (fun item =>
    decide (∀ start ∈ starting, start < item.1))

theorem after_ascending : (data.after room starting).Pairwise
    (fun item later => item.1 < later.1) :=
  items_ascending.filter _

theorem mem_after {item : PduCount × Pdu} : item ∈ data.after room starting ↔
      data.HasPdu room item ∧ ∀ start ∈ starting, start < item.1 := by
  rw [after, mem_filter, mem_items, decide_eq_true_iff]
  rfl

theorem filter_after_begins {wanted : PduCount → Bool}
    (closed : ∀ one other : PduCount, one.Drawn → other.Drawn → one < other →
      wanted other = true → wanted one = true) :
    (data.after room starting).filter (fun item => wanted item.1) <+:
      data.after room starting := by
  have drawn (item) (member : item ∈ data.after room starting) :
      item.1.Drawn := by
    obtain ⟨⟨json, stored, _⟩, _⟩ := mem_after.mp member
    exact stored.drawn
  rw [← (span_eq_filter_of_pairwise after_ascending
    fun one member other otherMember => closed one.1 other.1
      (drawn one member) (drawn other otherMember)).1]
  exact takeWhile_prefix _

def within (data : TimelineData) (room : ShortRoomId)
    (starting ending : Option PduCount) : List (PduCount × Pdu) :=
  (data.after room starting).filter (fun item =>
    decide (∀ last ∈ ending, ¬ last < item.1))

theorem mem_within {item : PduCount × Pdu} :
    item ∈ data.within room starting ending ↔
      data.HasPdu room item ∧ Within starting ending item.1 := by
  rw [within, mem_filter, mem_after, decide_eq_true_iff, and_assoc]
  rfl

theorem within_prefix : data.within room starting ending <+:
    data.after room starting :=
  @filter_after_begins data room starting (fun count =>
    decide (∀ last ∈ ending, ¬ last < count))
    fun _ _ _ _ less inside => decide_eq_true fun last isLast above =>
      of_decide_eq_true inside last isLast (Int64.lt_trans above less)

theorem shows_iff {timeline : TimelinePdus} :
    data.Shows room starting ending limit timeline ↔
      timeline.pdus = (data.within room starting ending).drop
          ((data.within room starting ending).length - limit) ∧
        (timeline.limited = true ↔
          limit < (data.within room starting ending).length) := by
  constructor
  · rintro ⟨range, ascending, members, shown⟩
    have same : range = data.within room starting ending :=
      eq_of_ordered_of_mem_iff (fun item => lt_irrefl item.1)
        (fun _ _ => lt_asymm) ascending (after_ascending.filter _)
        fun item => (members item).trans mem_within.symm
    rw [← same]
    exact shown
  · exact fun shown => ⟨_, after_ascending.filter _, fun _ => mem_within, shown⟩

/-- The bound that the rows are read back from. -/
def bound (ending : Option PduCount) : PduCount :=
  (ending.map (fun count => count.saturatingAdd 1)).getD .max

theorem given_bound_iff {event : PduCount} (drawn : event.Drawn)
    (counted : ∀ last ∈ ending, ∃ count, last = .normal count ∧ 0 < count) :
    Given (bound ending) .backward event ↔ UpTo ending event := by
  have ranked := rank_drawn drawn
  have most := event.intoSigned.toInt_lt
  cases ending with
  | none =>
      refine (given_backward_normal drawn _).trans ?_
      have value : (0x7FFFFFFFFFFFFFFF : UInt64).toNat = 2 ^ 63 - 1 := rfl
      have greatest : event = .max ↔ event.intoSigned.toInt = 2 ^ 63 - 1 :=
        eq_iff_toInt drawn drawn_max
      rw [value, UpTo, Ne, greatest]
      omega
  | some last =>
      obtain ⟨count, rfl, positive⟩ := counted last rfl
      refine (given_backward_normal drawn _).trans ?_
      have value : (UInt64.ofNat (Nat.min (count.toNat + 1)
          (2 ^ 64 - 1))).toNat = Nat.min (count.toNat + 1) (2 ^ 64 - 1) :=
        UInt64.toNat_ofNat_of_lt ((Nat.min_le_right _ _).trans_lt (by decide))
      have next : Nat.min (count.toNat + 1) (2 ^ 64 - 1) =
          if count.toNat + 1 ≤ 2 ^ 64 - 1 then count.toNat + 1
          else 2 ^ 64 - 1 := Nat.min_def
      have rank := rank_normal count
      have above := UInt64.lt_iff_toNat_lt.mp positive
      change _ ↔ ¬ (normal count).rank < event.rank
      change 1 < (UInt64.ofNat (Nat.min (count.toNat + 1)
        (2 ^ 64 - 1))).toNat ∧ _ < ((UInt64.ofNat (Nat.min (count.toNat + 1)
          (2 ^ 64 - 1))).toNat : Int) ↔ _
      rw [value]
      have zero : (0 : UInt64).toNat = 0 := rfl
      split at next
      · omega
      · omega

theorem pdusUpTo_eq (short : data.roomidShortroomid roomId = some room) :
    data.pdusUpTo roomId ending = ((data.items room).filter (fun item =>
      decide (Given (bound ending) .backward item.1))).reverse := by
  unfold pdusUpTo
  rw [← filterMap_readEvent (fun event =>
      decide (Given (bound ending) .backward event)),
    ← pdusRev_eq_given short, ← filterMap_reverse, reverse_reverse]
  rfl

theorem takeWhile_pdusUpTo
    (short : data.roomidShortroomid roomId = some room) (start : PduCount) :
    (data.pdusUpTo roomId ending).takeWhile (fun pdu => start < pdu.1) =
      ((data.after room (some start)).filter (fun item =>
        decide (Given (bound ending) .backward item.1))).reverse := by
  rw [pdusUpTo_eq short]
  refine (span_eq_filter_of_pairwise
    (pairwise_reverse.mpr (items_ascending.filter _)) ?_).1.trans ?_
  · intro one _ other _ less above
    exact decide_eq_true (Int64.lt_trans (of_decide_eq_true above) less)
  · rw [filter_reverse, filter_comm, after]
    simp

/-- The events below the greatest count. -/
def below (data : TimelineData) (room : ShortRoomId) : List (PduCount × Json) :=
  (data.events room).filter (fun event =>
    decide (Given (bound none) .backward event.1))

theorem mem_below {event : PduCount × Json} :
    event ∈ data.below room ↔ data.Stored room event ∧ event.1 ≠ .max := by
  rw [below, mem_filter, mem_events, decide_eq_true_iff]
  refine and_congr_right fun stored => ?_
  have nothing : ∀ last ∈ (none : Option PduCount),
      ∃ count, last = .normal count ∧ 0 < count := fun _ member => by
    cases member
  have upTo := given_bound_iff stored.drawn nothing
  simp only [UpTo] at upTo
  exact upTo

theorem head_below_iff {event : PduCount × Json} :
    (data.below room).reverse.head? = some event ↔ data.Newest room event := by
  have ordered : (data.below room).reverse.Pairwise
      (fun later event => event.1 < later.1) :=
    pairwise_reverse.mpr (events_ascending.filter _)
  rw [head?_eq_some_iff_of_pairwise (fun _ _ less => lt_asymm less) ordered]
  simp only [mem_reverse, mem_below, Newest, and_imp, and_assoc]

theorem lastTimelineCount_eq
    (short : data.roomidShortroomid roomId = some room) :
    (data.pdusRev roomId .max).head? =
      (data.below room).reverse.head?.map data.readEvent := by
  rw [← reverse_reverse (data.pdusRev roomId .max), pdusRev_eq_given short,
    ← map_reverse, head?_map]
  rfl

theorem lastTimelineCount_error
    (short : data.roomidShortroomid roomId = some room)
    {event : PduCount × Json} (newest : data.Newest room event)
    (unreadable : data.readPdu event.2 = none) :
    data.lastTimelineCount roomId = .error .serdeJson := by
  unfold lastTimelineCount
  rw [lastTimelineCount_eq short, head_below_iff.mpr newest, Option.map_some,
    readEvent, unreadable]

theorem lastTimelineCount_ok (short : data.roomidShortroomid roomId = some room)
    (readable : ∀ event, data.Newest room event →
      (data.readPdu event.2).isSome) (start : PduCount) :
    ∃ last, data.lastTimelineCount roomId = .ok last ∧
      (start < last → ¬ data.CaughtUp room start) ∧
      (¬ start < last → data.CaughtUp room start ∨ ¬ start < .max) := by
  have one {event other : PduCount × Json} (newest : data.Newest room event)
      (alsoNewest : data.Newest room other) : event = other :=
    Option.some.inj ((head_below_iff.mpr newest).symm.trans
      (head_below_iff.mpr alsoNewest))
  unfold lastTimelineCount
  rw [lastTimelineCount_eq short]
  cases found : (data.below room).reverse.head? with
  | none =>
      refine ⟨.max, rfl, fun _ => ?_, .inr⟩
      rintro ⟨count, json, newest, _⟩
      rw [head_below_iff.mpr newest] at found
      cases found
  | some event =>
      have newest := head_below_iff.mp found
      obtain ⟨pdu, read⟩ := Option.isSome_iff_exists.mp (readable event newest)
      obtain ⟨count, json⟩ := event
      rw [Option.map_some, readEvent, read]
      cases count with
      | normal count =>
          refine ⟨.normal count, rfl, fun less => ?_, fun caughtUp =>
            .inl ⟨count, json, newest, caughtUp⟩⟩
          rintro ⟨other, _, alsoNewest, caughtUp⟩
          cases one newest alsoNewest
          exact caughtUp less
      | backfilled count =>
          refine ⟨.max, rfl, fun _ => ?_, .inr⟩
          rintro ⟨other, _, alsoNewest, _⟩
          cases one newest alsoNewest

section

variable (short : data.roomidShortroomid roomId = some room)
  (counted : ∀ last ∈ ending, ∃ count, last = .normal count ∧ 0 < count)
include short counted

theorem loadTimeline_reaches (readable : starting.isSome → ∀ event,
      data.Newest room event → (data.readPdu event.2).isSome) :
    ∃ listed, data.loadTimeline roomId starting ending limit =
        .ok (takeTimeline listed.reverse limit) ∧
      listed <+: data.after room starting ∧
      ∀ item, item ∈ listed ↔
        data.HasPdu room item ∧ data.Reached room starting ending item.1 := by
  have streamed : (data.after room starting).filter (fun item =>
      decide (Given (bound ending) .backward item.1)) <+:
        data.after room starting := by
    refine @filter_after_begins data room starting (fun count =>
      decide (Given (bound ending) .backward count)) ?_
    intro one other drawn otherDrawn less given
    exact decide_eq_true (given_of_beyond otherDrawn drawn
      (of_decide_eq_true given) less)
  have members (item) : item ∈ (data.after room starting).filter (fun item =>
      decide (Given (bound ending) .backward item.1)) ↔
      data.HasPdu room item ∧ (∀ start ∈ starting, start < item.1) ∧
        UpTo ending item.1 := by
    rw [mem_filter, mem_after, decide_eq_true_iff, and_assoc]
    refine and_congr_right fun has => and_congr_right fun _ => ?_
    obtain ⟨json, stored, _⟩ := has
    exact given_bound_iff stored.drawn counted
  cases starting with
  | none =>
      refine ⟨_, ?_, streamed, fun item => (members item).trans ?_⟩
      · unfold loadTimeline
        rw [pdusUpTo_eq short]
        simp [after]
      · simp [Reached]
  | some start =>
      obtain ⟨last, isLast, early, late⟩ :=
        lastTimelineCount_ok short (readable rfl) start
      unfold loadTimeline
      simp only [isLast]
      by_cases more : start < last
      · refine ⟨_, ?_, streamed, fun item => (members item).trans ?_⟩
        · rw [if_pos more, takeWhile_pdusUpTo short]
        · simp [Reached, early more]
      · rw [if_neg more]
        refine ⟨[], by simp [takeTimeline, TimelinePdus.default], nil_prefix,
          fun item => iff_of_false not_mem_nil ?_⟩
        rintro ⟨⟨json, stored, _⟩, reached, _⟩
        obtain ⟨above, notCaughtUp⟩ := reached start rfl
        refine (late more).elim notCaughtUp fun most => most ?_
        exact lt_iff_toInt.mpr ((lt_iff_toInt.mp above).trans_le
          (Int.le_sub_one_of_lt item.1.intoSigned.toInt_lt))

/-- A timeline is exact if and only if what the code comes to is the range, or
nothing is asked for and both have events. -/
theorem loadTimeline_exact_iff :
    data.LoadsExactly roomId room starting ending limit ↔
      data.FindsRange room starting ending limit := by
  by_cases readable : starting.isSome → ∀ event, data.Newest room event →
    (data.readPdu event.2).isSome
  · obtain ⟨listed, loaded, starts, members⟩ :=
      @loadTimeline_reaches data room roomId starting ending limit short
        counted readable
    have some_iff {pdus : List (PduCount × Pdu)} :
        pdus ≠ [] ↔ ∃ item, item ∈ pdus :=
      ⟨exists_mem_of_ne_nil pdus, fun ⟨_, member⟩ => ne_nil_of_mem member⟩
    have distinct : (data.after room starting).Nodup := by
      refine after_ascending.imp fun {one other} less same => ?_
      rw [same] at less
      exact lt_irrefl _ less
    have loads : data.LoadsExactly roomId room starting ending limit ↔
        data.Shows room starting ending limit
          (takeTimeline listed.reverse limit) := by
      unfold LoadsExactly
      rw [loaded]
      constructor
      · rintro ⟨timeline, same, shown⟩
        exact Except.ok.inj same ▸ shown
      · exact fun shown => ⟨_, rfl, shown⟩
    have finds : data.FindsRange room starting ending limit ↔ _ :=
      ⟨FindsRange.same, FindsRange.mk readable⟩
    obtain ⟨pdus, limited⟩ := @takeTimeline_reverse limit listed
    rw [loads, shows_iff, pdus, limited, finds,
      lasts_eq_iff distinct starts within_prefix, some_iff, some_iff]
    simp only [members, mem_within]
    refine or_congr_left ⟨fun same item has => ?_, fun same => ?_⟩
    · have both := members item
      rw [same, mem_within, and_congr_right_iff] at both
      exact (both has).symm
    · refine eq_of_ordered_of_mem_iff (fun item => lt_irrefl item.1)
        (fun _ _ less => lt_asymm less) (after_ascending.sublist starts.sublist)
        (after_ascending.filter _) fun item => ?_
      rw [members, mem_within]
      exact and_congr_right fun has => same item has
  · refine iff_of_false ?_ fun finds => readable finds.readable
    rintro ⟨timeline, loaded, _⟩
    rw [not_forall] at readable
    obtain ⟨isSome, readable⟩ := readable
    rw [not_forall] at readable
    obtain ⟨event, readable⟩ := readable
    obtain ⟨newest, unreadable⟩ := Classical.not_imp.mp readable
    obtain ⟨start, rfl⟩ := Option.isSome_iff_exists.mp isSome
    unfold loadTimeline at loaded
    simp only [lastTimelineCount_error short newest
      (Option.not_isSome_iff_eq_none.mp unreadable)] at loaded
    cases loaded

end

section

variable (belowMax : ∀ event, data.Stored room event → event.1 ≠ .max)
include belowMax

theorem not_caughtUp {item : PduCount × Pdu} (has : data.HasPdu room item)
    {start : PduCount} (later : start < item.1) :
    ¬ data.CaughtUp room start := by
  rintro ⟨count, newestJson, ⟨_, _, newest⟩, caughtUp⟩
  obtain ⟨json, stored, _⟩ := has
  by_cases same : (item.1, json) = (.normal count, newestJson)
  · have sameCount : item.1 = .normal count := congrArg Prod.fst same
    rw [sameCount] at later
    exact caughtUp later
  · have below : item.1 < .normal count :=
      newest (item.1, json) stored (belowMax _ stored) same
    exact caughtUp (Int64.lt_trans later below)

omit belowMax in
theorem upTo_normal_iff {event : PduCount} (drawn : event.Drawn)
    {count : UInt64} (positive : 0 < count) (small : count.toNat < 2 ^ 63) :
    UpTo (some (.normal count)) event ↔ ¬ normal count < event := by
  have countDrawn : (normal count).Drawn :=
    ⟨positive, UInt64.le_iff_toNat_le.mpr (Nat.le_pred_of_lt small)⟩
  have eventRank := rank_drawn drawn
  have countRank := rank_drawn countDrawn
  rw [UpTo, lt_iff_toInt]
  omega

/-- Below the greatest count a timeline is exact, unless a newest event that
cannot be read makes an incremental load fail. -/
theorem loadTimeline_exact (short : data.roomidShortroomid roomId = some room)
    (counted : ∀ last ∈ ending,
      ∃ count, last = .normal count ∧ 0 < count ∧ count.toNat < 2 ^ 63)
    (readable : starting.isSome → ∀ event, data.Newest room event →
      (data.readPdu event.2).isSome) :
    data.LoadsExactly roomId room starting ending limit := by
  refine (loadTimeline_exact_iff short fun last isLast => ?_).mpr
    ⟨readable, .inl fun item has => and_congr ?_ ?_⟩
  · obtain ⟨count, isCount, positive, _⟩ := counted last isLast
    exact ⟨count, isCount, positive⟩
  · refine forall₂_congr fun start _ => and_iff_left_of_imp fun later => ?_
    exact not_caughtUp belowMax has later
  · obtain ⟨json, stored, _⟩ := has
    cases ending with
    | none => simpa [UpTo] using belowMax _ stored
    | some last =>
        obtain ⟨count, rfl, positive, small⟩ := counted last rfl
        simpa using upTo_normal_iff stored.drawn positive small

end

def lastPdu : Pdu := Pdu.message "$last" "!room" "@alice"

def numberedPdu : Json → Option Pdu
  | .str eventId => some { lastPdu with eventId }
  | _ => none

def putNumbered (pdus : PduTable)
    (event : {count : PduCount // count.Drawn} × EventId) : PduTable :=
  pdus.put ⟨1, event.1.val⟩ event.1.property (.str event.2)

/-- A room with a backfilled event and five others. -/
def sixPdus : TimelineData where
  readPdu := numberedPdu
  roomidShortroomid := fun _ => some 1
  pduidPdu := [(⟨.backfilled (-2), by decide⟩, "$old"),
    (⟨.normal 3, by decide⟩, "$3"), (⟨.normal 5, by decide⟩, "$5"),
    (⟨.normal 7, by decide⟩, "$7"), (⟨.normal 9, by decide⟩, "$9"),
    (⟨.normal 11, by decide⟩, "$11")].foldl putNumbered PduTable.empty

/-- The last two of the three events between two counts. -/
theorem sixPdus_exact :
    (sixPdus.loadTimeline "!room" (some (.normal 3)) (some (.normal 9))
        2).toOption.map (fun timeline =>
      (timeline.pdus.map (fun pdu => pdu.2.eventId), timeline.limited)) =
        some (["$7", "$9"], true) ∧
    sixPdus.LoadsExactly "!room" 1 (some (.normal 3)) (some (.normal 9)) 2 := by
  have below : ∀ event ∈ sixPdus.events 1,
      event.1 ≠ .max ∧ (sixPdus.readPdu event.2).isSome = true := by
    decide +kernel
  refine ⟨by decide +kernel, loadTimeline_exact
    (fun event stored => (below event (mem_events.mpr stored)).1) rfl ?_ ?_⟩
  · rintro last ⟨⟩
    exact ⟨9, rfl, by decide, by decide⟩
  · exact fun _ event newest => (below event (mem_events.mpr newest.1)).2

/-- A room with one event, at the greatest count. -/
def lastCount : TimelineData where
  readPdu := fun _ => some lastPdu
  roomidShortroomid := fun _ => some 1
  pduidPdu := PduTable.empty.put ⟨1, .max⟩ drawn_max .null

theorem lastCount_missed :
    ¬ lastCount.LoadsExactly "!room" 1 none none 10 := by
  rintro ⟨timeline, loaded, range, _, members, pdus, _⟩
  have nothing : lastCount.pdusUpTo "!room" none = [] :=
    isEmpty_iff.mp (by decide +kernel)
  have shown := Except.ok.inj loaded
  rw [nothing] at shown
  have listed : (.max, lastPdu) ∈ range := by
    refine (members _).mpr ⟨⟨.null, SortedTable.mem_put.mpr (.inl rfl), rfl⟩,
      fun _ isStart => ?_, fun _ isLast => ?_⟩
    · cases isStart
    · cases isLast
  have some := length_pos_of_mem listed
  have few := congrArg length (pdus.symm.trans (congrArg _ shown.symm))
  simp only [length_drop, takeTimeline, take_nil, reverse_nil, length_nil] at few
  omega

end TimelineData

end ArcanaServer.Timeline
