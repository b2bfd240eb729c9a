import ArcanaServer.Library.Decimal
import ArcanaServer.Library.Ordered
import ArcanaServer.Matrix.PduId

namespace ArcanaServer.Timeline

open Database Library ArcanaServer.Matrix PduCount SortedTable
open Sending (RawPduId)
open List

/-! The events of a room before or after a count, read from the rows of all
rooms. -/

inductive ReadError where
  | roomNotFound (roomId : RoomId)
  | serdeJson
  | panic (message : String)
  deriving DecidableEq, Repr

/-- The rows of the events.  Their keys are ids with counts that the server has
handed out. -/
structure PduTable where
  table : SortedTable Key Json
  drawn : ∀ row ∈ table, ∃ id : PduId,
    id.shorteventid.Drawn ∧ row.1 = id.raw.bytes

namespace PduTable

def empty : PduTable := ⟨.empty, fun _ member =>
  absurd member not_mem_empty⟩

def put (pdus : PduTable) (id : PduId) (drawn : id.shorteventid.Drawn)
    (json : Json) : PduTable where
  table := pdus.table.put id.raw.bytes json
  drawn := by
    intro row member
    rcases mem_put.mp member with new | old
    · exact ⟨id, drawn, by rw [new]⟩
    · exact pdus.drawn row old.1

end PduTable

/-- `readPdu` parses an event. -/
structure TimelineData where
  readPdu : Json → Option Pdu
  roomidShortroomid : RoomId → Option ShortRoomId
  pduidPdu : PduTable

def shortroomid (id : RawPduId) : Key := id.bytes.take 8

def shorteventid (id : RawPduId) : Key :=
  if id.bytes.length = 16 then (id.bytes.drop 8).take 8
  else (id.bytes.drop 16).take 8

def pduCount (id : RawPduId) : PduCount :=
  .fromUnsigned (u64FromBytes (shorteventid id))

namespace TimelineData

variable (data : TimelineData)

/-- The count moves by one, so that the event at it is left out. -/
def countToId (roomId : RoomId) (shorteventid : PduCount) (dir : Direction) :
    Except ReadError RawPduId :=
  match data.roomidShortroomid roomId with
  | none => .error (.roomNotFound roomId)
  | some shortroomid =>
      .ok (PduId.raw {
        shortroomid, shorteventid := shorteventid.saturatingInc dir })

def fromJsonSlice (row : Key × Json) : Except ReadError (PduCount × Pdu) :=
  match RawPduId.parse row.1 with
  | none => .error (.panic "unrecognized RawId length")
  | some pduId =>
      match data.readPdu row.2 with
      | none => .error .serdeJson
      | some pdu => .ok (pduCount pduId, pdu)

def pdus (roomId : RoomId) (from_ : PduCount) :
    List (Except ReadError (PduCount × Pdu)) :=
  match data.countToId roomId from_ .forward with
  | .error error => [.error error]
  | .ok current =>
      (data.pduidPdu.table.scanPrefixFrom (shortroomid current)
        current.bytes).map data.fromJsonSlice

def pdusRev (roomId : RoomId) (until_ : PduCount) :
    List (Except ReadError (PduCount × Pdu)) :=
  match data.countToId roomId until_ .backward with
  | .error error => [.error error]
  | .ok current =>
      (data.pduidPdu.table.scanPrefixRev (shortroomid current)
        current.bytes).map data.fromJsonSlice

variable (room : ShortRoomId)

def Stored (event : PduCount × Json) : Prop :=
  ((PduId.mk room event.1).raw.bytes, event.2) ∈ data.pduidPdu.table

def readEvent (event : PduCount × Json) :
    Except ReadError (PduCount × Pdu) :=
  match data.readPdu event.2 with
  | none => .error .serdeJson
  | some pdu => .ok (event.1, pdu)

/-- The items are the events of the room that are wanted, each once, in the
order of `before`. -/
def Lists (wanted : PduCount → Prop) (before : PduCount → PduCount → Prop)
    (items : List (Except ReadError (PduCount × Pdu))) : Prop :=
  ∃ events : List (PduCount × Json), items = events.map data.readEvent ∧
    events.Pairwise (fun event other => before event.1 other.1) ∧
    ∀ event, event ∈ events ↔ data.Stored room event ∧ wanted event.1

/-- Both ranges at a count are exact. -/
def ExactAt (roomId : RoomId) (count : PduCount) : Prop :=
  ∀ room, data.roomidShortroomid roomId = some room →
    data.Lists room (fun event => count < event)
      (fun event later => event < later) (data.pdus roomId count) ∧
    data.Lists room (fun event => event < count)
      (fun event earlier => earlier < event) (data.pdusRev roomId count)

def roomEvent (row : Key × Json) : Option (PduCount × Json) :=
  match RawPduId.parse row.1 with
  | none => none
  | some pduId =>
      if shortroomid pduId = u64Bytes room then some (pduCount pduId, row.2)
      else none

def events : List (PduCount × Json) :=
  data.pduidPdu.table.rows.filterMap (roomEvent room)

end TimelineData

theorem parse_raw (id : PduId) : RawPduId.parse id.raw.bytes = some id.raw :=
  dif_pos id.raw.isLength

theorem shortroomid_raw (id : PduId) :
    shortroomid id.raw = u64Bytes id.shortroomid :=
  take_left' (u64Bytes_length _)

theorem fromSigned_drawn {count : PduCount} (drawn : count.Drawn) :
    fromSigned count.intoSigned = count := by
  unfold fromSigned
  cases count with
  | normal count =>
      obtain ⟨value, positive⟩ := toInt_of_drawn drawn
      have above : ¬ count.toInt64 ≤ 0 := by
        rw [Int64.le_iff_toInt_le, value]
        change ¬ (count.toNat : Int) ≤ 0
        omega
      exact (if_neg above).trans
        (congrArg normal (UInt64.toUInt64_toInt64 count))
  | backfilled count =>
      exact if_pos (Int64.le_of_lt drawn)

theorem shorteventid_raw (id : PduId) :
    shorteventid id.raw = u64Bytes id.shorteventid.intoSigned.toUInt64 := by
  obtain ⟨room, count⟩ := id
  cases count with
  | normal count =>
      have length : (u64Bytes room ++ u64Bytes count).length = 16 := by
        rw [length_append, u64Bytes_length, u64Bytes_length]
      refine (if_pos length).trans ?_
      change ((u64Bytes room ++ u64Bytes count).drop 8).take 8 =
        u64Bytes count.toInt64.toUInt64
      rw [drop_left' (u64Bytes_length room), UInt64.toUInt64_toInt64]
      exact take_of_length_le (u64Bytes_length count).le
  | backfilled count =>
      have length : (u64Bytes room ++
          (u64Bytes 0 ++ u64Bytes count.toUInt64)).length ≠ 16 := by
        simp only [length_append, u64Bytes_length]
        decide
      refine (if_neg length).trans ?_
      change ((u64Bytes room ++
        (u64Bytes 0 ++ u64Bytes count.toUInt64)).drop 16).take 8 =
          u64Bytes count.toUInt64
      rw [← append_assoc, drop_left'
        (by rw [length_append, u64Bytes_length, u64Bytes_length])]
      exact take_of_length_le (u64Bytes_length _).le

theorem pduCount_raw {id : PduId} (drawn : id.shorteventid.Drawn) :
    pduCount id.raw = id.shorteventid := by
  unfold pduCount fromUnsigned
  rw [shorteventid_raw, u64FromBytes_u64Bytes, Int64.toInt64_toUInt64]
  exact fromSigned_drawn drawn

namespace TimelineData

variable {data : TimelineData} {room : ShortRoomId} {roomId : RoomId}
  {event : PduCount × Json}

theorem roomEvent_raw {id : PduId} (drawn : id.shorteventid.Drawn)
    (json : Json) :
    roomEvent room (id.raw.bytes, json) =
      if id.shortroomid = room then some (id.shorteventid, json) else none := by
  unfold roomEvent
  rw [parse_raw]
  simp only [shortroomid_raw, pduCount_raw drawn]
  by_cases same : id.shortroomid = room
  · rw [if_pos same, if_pos (congrArg u64Bytes same)]
  · rw [if_neg same, if_neg fun bytes => same (u64Bytes_inj bytes)]

theorem Stored.drawn (stored : data.Stored room event) : event.1.Drawn := by
  obtain ⟨id, drawn, bytes⟩ := data.pduidPdu.drawn _ stored
  have same : PduId.mk room event.1 = id := by
    refine PduId.raw_injective ?_
    have parsed := parse_raw (PduId.mk room event.1)
    rw [show (PduId.mk room event.1).raw.bytes = id.raw.bytes from bytes,
      parse_raw] at parsed
    exact (Option.some.inj parsed).symm
  rw [← same] at drawn
  exact drawn

theorem mem_events : event ∈ data.events room ↔ data.Stored room event := by
  unfold events
  rw [mem_filterMap]
  constructor
  · rintro ⟨row, member, held⟩
    obtain ⟨id, drawn, bytes⟩ := data.pduidPdu.drawn row member
    have parts : row = (id.raw.bytes, row.2) := Prod.ext bytes rfl
    rw [parts, roomEvent_raw drawn] at held
    split at held
    next sameRoom =>
      cases held
      unfold Stored
      rw [← sameRoom, ← parts]
      exact member
    · cases held
  · intro stored
    refine ⟨_, stored, ?_⟩
    have drawn : (PduId.mk room event.1).shorteventid.Drawn := stored.drawn
    rw [roomEvent_raw drawn]
    exact if_pos rfl

theorem events_ascending :
    (data.events room).Pairwise (fun event later => event.1 < later.1) := by
  unfold events
  rw [pairwise_filterMap]
  refine data.pduidPdu.table.sorted.imp_of_mem
    fun {row later} member laterMember less => ?_
  intro event held other laterHeld
  obtain ⟨id, drawn, bytes⟩ := data.pduidPdu.drawn row member
  obtain ⟨laterId, laterDrawn, laterBytes⟩ := data.pduidPdu.drawn later
    laterMember
  rw [show row = (id.raw.bytes, row.2) from Prod.ext bytes rfl,
    roomEvent_raw drawn] at held
  rw [show later = (laterId.raw.bytes, later.2) from Prod.ext laterBytes rfl,
    roomEvent_raw laterDrawn] at laterHeld
  split at held
  next sameRoom =>
    split at laterHeld
    next sameLater =>
      cases held
      cases laterHeld
      rw [bytes, laterBytes] at less
      exact (PduId.raw_lt_iff (sameRoom.trans sameLater.symm) drawn
        laterDrawn).mp less
    · cases laterHeld
  · cases held

theorem lt_irrefl (count : PduCount) : ¬ count < count := Int64.lt_irrefl

theorem lt_asymm {one other : PduCount} (less : one < other) : ¬ other < one :=
  Int64.lt_asymm less

variable {items : List (Except ReadError (PduCount × Pdu))}

theorem lists_iff {wanted : PduCount → Prop} [DecidablePred wanted] :
    data.Lists room wanted (fun event later => event < later) items ↔
      items = ((data.events room).filter
        (fun event => decide (wanted event.1))).map data.readEvent := by
  constructor
  · rintro ⟨listed, made, ordered, members⟩
    rw [made]
    refine congrArg (map data.readEvent)
      (eq_of_ordered_of_mem_iff (fun event => lt_irrefl event.1)
        (fun _ _ => lt_asymm) ordered (events_ascending.filter _)
        fun event => ?_)
    rw [members, mem_filter, mem_events, decide_eq_true_iff]
  · intro made
    refine ⟨_, made, events_ascending.filter _, fun event => ?_⟩
    rw [mem_filter, mem_events, decide_eq_true_iff]

theorem lists_reverse_iff {wanted : PduCount → Prop} :
    data.Lists room wanted (fun event earlier => earlier < event) items ↔
      data.Lists room wanted (fun event later => event < later)
        items.reverse := by
  constructor
  · rintro ⟨listed, made, ordered, members⟩
    refine ⟨listed.reverse, ?_, pairwise_reverse.mpr ordered,
      fun event => mem_reverse.trans (members event)⟩
    rw [made, map_reverse]
  · rintro ⟨listed, made, ordered, members⟩
    refine ⟨listed.reverse, ?_, pairwise_reverse.mpr ordered,
      fun event => mem_reverse.trans (members event)⟩
    rw [← reverse_reverse items, made, map_reverse]

theorem room_prefix_raw (count : PduCount) :
    u64Bytes room <+: (PduId.mk room count).raw.bytes :=
  prefix_append _ _

theorem raw_lt_iff_rank {older newer : PduCount} :
    (PduId.mk room older).raw.bytes < (PduId.mk room newer).raw.bytes ↔
      older.rank < newer.rank := by
  change u64Bytes room ++ older.bytes < u64Bytes room ++ newer.bytes ↔ _
  rw [append_lt_append_left_iff, bytes_lt_iff_rank]

theorem map_filter_rows {select : Key → Bool} {wanted : PduCount → Bool}
    (agree : ∀ count, select (PduId.mk room count).raw.bytes = wanted count) :
    (data.pduidPdu.table.rows.filter (fun row =>
        select row.1 && (u64Bytes room).isPrefixOf row.1)).map
          data.fromJsonSlice =
      ((data.events room).filter (fun event => wanted event.1)).map
        data.readEvent := by
  have starts (id : PduId) : (u64Bytes room).isPrefixOf id.raw.bytes = true ↔
        id.shortroomid = room :=
    isPrefixOf_iff_prefix.trans (u64Bytes_prefix_iff.trans eq_comm)
  refine map_filter_eq_map_filter_filterMap ?_ ?_
  · intro row member selected
    obtain ⟨id, drawn, bytes⟩ := data.pduidPdu.drawn row member
    obtain ⟨key, json⟩ := row
    change key = id.raw.bytes at bytes
    subst bytes
    obtain ⟨isSelected, begins⟩ := Bool.and_eq_true_iff.mp selected
    have sameRoom := (starts id).mp begins
    refine ⟨(id.shorteventid, json), ?_, ?_, ?_⟩
    · rw [roomEvent_raw drawn]
      exact if_pos sameRoom
    · rw [← agree, ← sameRoom]
      exact isSelected
    · unfold fromJsonSlice readEvent
      rw [parse_raw]
      simp only [pduCount_raw drawn]
  · intro row member passed event held
    obtain ⟨id, drawn, bytes⟩ := data.pduidPdu.drawn row member
    obtain ⟨key, json⟩ := row
    change key = id.raw.bytes at bytes
    subst bytes
    rw [roomEvent_raw drawn] at held
    split at held
    next sameRoom =>
      cases held
      have begins := (starts id).mpr sameRoom
      rw [begins, Bool.and_true] at passed
      rw [← agree, ← sameRoom]
      exact passed
    · cases held

variable (count : PduCount)

theorem pdus_eq (short : data.roomidShortroomid roomId = some room) :
    data.pdus roomId count =
      ((data.events room).filter (fun event =>
        !decide (event.1.rank < (count.saturatingInc .forward).rank))).map
          data.readEvent := by
  unfold pdus countToId
  rw [short]
  simp only [shortroomid_raw]
  rw [scanPrefixFrom_eq_filter _ (room_prefix_raw _)]
  exact @map_filter_rows data room (fun key => !decide (key <
      (PduId.mk room (count.saturatingInc .forward)).raw.bytes))
    (fun event => !decide (event.rank < (count.saturatingInc .forward).rank))
    (fun event => by simp only [raw_lt_iff_rank])

theorem pdusRev_eq (short : data.roomidShortroomid roomId = some room) :
    (data.pdusRev roomId count).reverse =
      ((data.events room).filter (fun event =>
        !decide ((count.saturatingInc .backward).rank < event.1.rank))).map
          data.readEvent := by
  unfold pdusRev countToId
  rw [short]
  simp only [shortroomid_raw]
  rw [scanPrefixRev_eq_filter _ (room_prefix_raw _),
    map_reverse, reverse_reverse]
  exact @map_filter_rows data room (fun key => !decide ((PduId.mk room
      (count.saturatingInc .backward)).raw.bytes < key))
    (fun event => !decide ((count.saturatingInc .backward).rank < event.rank))
    (fun event => by simp only [raw_lt_iff_rank])

end TimelineData

def readInteger : List Char → Option Int
  | [] => none
  | first :: rest =>
      if first = '-' then
        (readDigits rest).map (fun number : Nat => -(number : Int))
      else if first = '+' then (readDigits rest).map Int.ofNat
      else (readDigits (first :: rest)).map Int.ofNat

def parseSigned (token : String) : Option Int64 :=
  match readInteger token.toList with
  | none => none
  | some number =>
      if Int64.minValue.toInt ≤ number ∧ number ≤ Int64.maxValue.toInt then
        some (Int64.ofInt number)
      else none

def countFromStr (token : String) : Option PduCount :=
  (parseSigned token).map fromSigned

def toDecimal (number : Int) : List Char :=
  if number < 0 then '-' :: Nat.toDigits 10 number.natAbs
  else Nat.toDigits 10 number.natAbs

def countToString : PduCount → String
  | .normal count => String.ofList (toDecimal count.toNat)
  | .backfilled count => String.ofList (toDecimal count.toInt)

theorem readInteger_toDigits (number : Nat) :
    readInteger (Nat.toDigits 10 number) = some (number : Int) := by
  have read := readDigits_toDigits number
  have areDigits : ∀ char ∈ Nat.toDigits 10 number, char.isDigit = true :=
    fun _ member => Nat.isDigit_of_mem_toDigits (by decide) (by decide) member
  cases digits : Nat.toDigits 10 number with
  | nil => exact absurd digits Nat.toDigits_ne_nil
  | cons first rest =>
      rw [digits] at read areDigits
      have isDigit := areDigits first mem_cons_self
      have noMinus : first ≠ '-' := by
        rintro rfl
        exact absurd isDigit (by decide)
      have noPlus : first ≠ '+' := by
        rintro rfl
        exact absurd isDigit (by decide)
      simp only [readInteger, noMinus, noPlus, if_false, read, Option.map_some]
      rfl

theorem readInteger_toDecimal (number : Int) :
    readInteger (toDecimal number) = some number := by
  unfold toDecimal
  by_cases negative : number < 0
  · have value : -(number.natAbs : Int) = number := by omega
    simp only [readInteger, negative, if_true, readDigits_toDigits,
      Option.map_some, value]
  · rw [if_neg negative, readInteger_toDigits]
    exact congrArg some (by omega)

theorem parseSigned_toDecimal (count : Int64) :
    parseSigned (String.ofList (toDecimal count.toInt)) = some count := by
  unfold parseSigned
  rw [String.toList_ofList, readInteger_toDecimal]
  have least := count.le_toInt
  have most := count.toInt_lt
  have fits : Int64.minValue.toInt ≤ count.toInt ∧
      count.toInt ≤ Int64.maxValue.toInt := by
    change -2 ^ 63 ≤ count.toInt ∧ count.toInt ≤ 2 ^ 63 - 1
    omega
  simp only
  rw [if_pos fits, Int64.ofInt_toInt]

/-- The token of a count that was handed out is read back as the count. -/
theorem countFromStr_countToString {count : PduCount} (drawn : count.Drawn) :
    countFromStr (countToString count) = some count := by
  have shown : countToString count =
      String.ofList (toDecimal count.intoSigned.toInt) := by
    cases count with
    | normal count =>
        obtain ⟨value, _⟩ := toInt_of_drawn drawn
        change String.ofList (toDecimal count.toNat) =
          String.ofList (toDecimal count.toInt64.toInt)
        rw [value]
    | backfilled count => rfl
  unfold countFromStr
  rw [shown, parseSigned_toDecimal, Option.map_some, fromSigned_drawn drawn]

/-- `Id::from`. -/
def idFromRaw (raw : RawPduId) : PduId where
  shortroomid := u64FromBytes (shortroomid raw)
  shorteventid := pduCount raw

variable {id other : PduId}

theorem idFromRaw_raw (drawn : id.shorteventid.Drawn) :
    idFromRaw id.raw = id := by
  unfold idFromRaw
  rw [shortroomid_raw, u64FromBytes_u64Bytes, pduCount_raw drawn]

theorem shortroomid_prefix_iff : shortroomid id.raw <+: other.raw.bytes ↔
    id.shortroomid = other.shortroomid := by
  rw [shortroomid_raw]
  exact u64Bytes_prefix_iff

theorem backfilled_lt_normal {back : Int64} {count : UInt64}
    (backDrawn : (backfilled back).Drawn)
    (drawn : (normal count).Drawn) :
    backfilled back < normal count := by
  have negative := (toInt_of_negative backDrawn).2
  obtain ⟨value, positive⟩ := toInt_of_drawn drawn
  refine Int64.lt_iff_toInt_lt.mpr ?_
  change back.toInt < count.toInt64.toInt
  omega

theorem pduIds_exact (drawn : id.shorteventid.Drawn)
    (otherDrawn : other.shorteventid.Drawn) :
    idFromRaw id.raw = id ∧
      (id.shortroomid = other.shortroomid → (id.raw.bytes < other.raw.bytes ↔
          id.shorteventid < other.shorteventid) ∧
        ∀ back count, id.shorteventid = .backfilled back →
          other.shorteventid = .normal count → id.raw.bytes < other.raw.bytes) ∧
      (shortroomid id.raw <+: other.raw.bytes ↔
        id.shortroomid = other.shortroomid) ∧
      countFromStr (countToString id.shorteventid) = some id.shorteventid := by
  refine ⟨idFromRaw_raw drawn, fun sameRoom => ?_, shortroomid_prefix_iff,
    countFromStr_countToString drawn⟩
  have ordered := PduId.raw_lt_iff sameRoom drawn otherDrawn
  refine ⟨ordered, fun back count isBack isNormal => ordered.mpr ?_⟩
  rw [isBack] at drawn
  rw [isNormal] at otherDrawn
  have before := backfilled_lt_normal drawn otherDrawn
  rw [← isBack, ← isNormal] at before
  exact before

theorem pduIds_exact_pair : idFromRaw (PduId.mk 5 (.backfilled (-3))).raw =
        ⟨5, .backfilled (-3)⟩ ∧
      (PduId.mk 5 (.backfilled (-3))).raw.bytes <
        (PduId.mk 5 (.normal 7)).raw.bytes := by
  have facts := @pduIds_exact ⟨5, .backfilled (-3)⟩ ⟨5, .normal 7⟩
    (by decide) (by decide)
  exact ⟨facts.1, (facts.2.1 rfl).2 (-3) 7 rfl rfl⟩

end ArcanaServer.Timeline
