import ArcanaServer.Database.Prefixes
import ArcanaServer.Library.Settles
import ArcanaServer.Matrix.PduId
import ArcanaServer.Utils.Intersection
import Mathlib.Data.Finset.Basic
import Mathlib.Data.Set.List

namespace ArcanaServer.Rooms.Search

open Library ArcanaServer.Matrix PduId
open Database (Key strBytes u64Bytes)
open Sending (RawPduId separator)
open List SortedTable
open Utils (intersection mem_intersection)

/-- What the standard library knows of characters. -/
structure Unicode where
  isAlphanumeric : Char → Bool
  toLowercase : String → String

inductive Failure where
  | panic (message : String)
  | shortroomid (message : String)
  deriving DecidableEq, Repr

abbrev Tokenids := SortedTable Key Unit

structure RoomQuery where
  roomId : RoomId
  searchTerm : String

def wordMaxLen : Nat := 50

/-- A raw id of an event has 24 bytes and a tag. -/
def tokenIdMaxLen : Nat := 8 + wordMaxLen + 1 + (24 + 1)

/-- The pieces between the separators, without an empty one at the end. -/
def splitTerminator (isSeparator : Char → Bool) (text : String) :
    List String :=
  let pieces := (text.toList.splitOnP isSeparator).map String.ofList
  if pieces.getLast? = some "" then pieces.dropLast else pieces

section

variable (unicode : Unicode)

def tokenize (body : String) : List String :=
  (((splitTerminator (fun char => !unicode.isAlphanumeric char) body).filter
    (fun word => !word.isEmpty)).filter
    (fun word => word.utf8ByteSize ≤ wordMaxLen)).map unicode.toLowercase

def tokenKey (shortroomid : ShortRoomId) (word : String)
    (pduId : RawPduId) : Key :=
  u64Bytes shortroomid ++ (strBytes word ++ separator :: pduId.bytes)

variable (tokenids : Tokenids) (shortroomid : ShortRoomId) (pduId : RawPduId)
  (messageBody : String)

def indexPdu : Tokenids :=
  tokenids.putAll ((tokenize unicode messageBody).map
    (fun word => (tokenKey shortroomid word pduId, ())))

def deindexPdu : Tokenids :=
  tokenids.eraseAll ((tokenize unicode messageBody).map
    (fun word => tokenKey shortroomid word pduId))

end

structure TokenId where
  bytes : Key
  fits : bytes.length ≤ tokenIdMaxLen

namespace TokenId

def new : TokenId where
  bytes := []
  fits := Nat.zero_le _

def extendFromSlice (key : TokenId) (other : Key) : Except Failure TokenId :=
  if fits : (key.bytes ++ other).length ≤ tokenIdMaxLen then
    .ok { bytes := key.bytes ++ other, fits }
  else
    .error (.panic ("Insufficient buffer capacity to extend from slice: " ++
      "CapacityError: insufficient capacity"))

def push (key : TokenId) (byte : Sending.Byte) : Except Failure TokenId :=
  if fits : (key.bytes ++ [byte]).length ≤ tokenIdMaxLen then
    .ok { bytes := key.bytes ++ [byte], fits }
  else
    .error (.panic ("called `Result::unwrap()` on an `Err` value: " ++
      "CapacityError: insufficient capacity"))

end TokenId

open TokenId

def makePrefix (shortroomid : ShortRoomId) (word : String) :
    Except Failure TokenId := do
  let key ← TokenId.new.extendFromSlice (u64Bytes shortroomid)
  let key ← key.extendFromSlice (strBytes word)
  key.push separator

def makeTokenid (shortroomid : ShortRoomId) (word : String)
    (pduId : RawPduId) : Except Failure TokenId := do
  let key ← makePrefix shortroomid word
  key.extendFromSlice pduId.bytes

def prefixLen (word : String) : Nat := 8 + (strBytes word).length + 1

def rawPduId (bytes : Key) : Except Failure RawPduId :=
  match RawPduId.parse bytes with
  | some id => .ok id
  | none => .error (.panic "not implemented: unrecognized RawId length")

section

variable (unicode : Unicode) (tokenids : Tokenids)

/-- The keys of a word, those of the newest events first. -/
def searchPduIdsQueryWord (shortroomid : ShortRoomId) (word : String) :
    Except Failure (List Key) := do
  let endId : PduId := { shortroomid, shorteventid := .max }
  let finish ← makeTokenid shortroomid word endId.raw
  let start ← makePrefix shortroomid word
  pure ((tokenids.scanPrefixRev start.bytes finish.bytes).map Prod.fst)

def searchPduIdsQueryWords (shortroomid : ShortRoomId) (word : String) :
    Except Failure (List RawPduId) := do
  let keys ← searchPduIdsQueryWord tokenids shortroomid word
  keys.mapM (fun key => rawPduId (key.drop (prefixLen word)))

def searchPduIdsQueryRoom (query : RoomQuery) (shortroomid : ShortRoomId) :
    Except Failure (List (List RawPduId)) :=
  (tokenize unicode query.searchTerm).mapM
    (searchPduIdsQueryWords tokenids shortroomid)

def searchPduIds (getShortroomid : RoomId → Except Failure ShortRoomId)
    (query : RoomQuery) : Except Failure (List RawPduId) := do
  let shortroomid ← getShortroomid query.roomId
  let pduIds ← searchPduIdsQueryRoom unicode tokenids query shortroomid
  pure (intersection pduIds)

end

open Database

structure EventPlace where
  id : PduId
  drawn : id.shorteventid.Drawn

inductive Call where
  | index (place : EventPlace)
  | deindex (shortroomid : ShortRoomId) (place : EventPlace)

abbrev Indexed := Finset (ShortRoomId × PduId)

def Call.record (indexed : Indexed) : Call → Indexed
  | .index place => insert (place.id.shortroomid, place.id) indexed
  | .deindex shortroomid place => indexed.erase (shortroomid, place.id)

def recordAll (calls : List Call) : Indexed := calls.foldl Call.record ∅

section

variable {room otherRoom : ShortRoomId} {word otherWord : String}
  {raw otherRaw : RawPduId}

def tokenPrefix (room : ShortRoomId) (word : String) : Key :=
  u64Bytes room ++ (strBytes word ++ [separator])

theorem tokenKey_eq : tokenKey room word raw =
    tokenPrefix room word ++ raw.bytes := by
  simp [tokenKey, tokenPrefix]

theorem tokenPrefix_length :
    (tokenPrefix room word).length = prefixLen word := by
  unfold tokenPrefix prefixLen
  rw [length_append, length_append, u64Bytes_length,
    length_singleton, Nat.add_assoc]

theorem tokenPrefix_prefix_iff : tokenPrefix room word <+:
    tokenKey otherRoom otherWord raw ↔ room = otherRoom ∧ word = otherWord := by
  have words := @closed_texts_prefix_iff [word] [otherWord] raw.bytes rfl
  rw [tokenKey_eq]
  constructor
  · intro starts
    unfold tokenPrefix at starts
    rw [append_assoc] at starts
    have rooms : u64Bytes room = u64Bytes otherRoom := by
      refine List.IsPrefix.eq_of_length ?_
        (by rw [u64Bytes_length, u64Bytes_length])
      refine prefix_of_prefix_length_le
        ((prefix_append _ _).trans starts) (prefix_append _ _) ?_
      rw [u64Bytes_length, u64Bytes_length]
    rw [rooms, prefix_append_right_inj] at starts
    refine ⟨u64Bytes_inj rooms, ?_⟩
    have same := words.mp (by
      simpa [closed, Component.content] using starts)
    exact head_eq_of_cons_eq same
  · intro same
    rw [same.1, same.2]
    exact prefix_append _ _

theorem tokenKey_inj (same : tokenKey room word raw =
    tokenKey otherRoom otherWord otherRaw) :
    room = otherRoom ∧ word = otherWord ∧ raw.bytes = otherRaw.bytes := by
  have starts : tokenPrefix room word <+:
      tokenKey otherRoom otherWord otherRaw := by
    rw [← same, tokenKey_eq]
    exact prefix_append _ _
  obtain ⟨rooms, words⟩ := tokenPrefix_prefix_iff.mp starts
  refine ⟨rooms, words, ?_⟩
  rw [rooms, words, tokenKey_eq, tokenKey_eq] at same
  exact append_cancel_left same

end

section

variable (unicode : Unicode) (bodyOf : PduId → String)

def Call.perform (tokenids : Tokenids) : Call → Tokenids
  | .index place => indexPdu unicode tokenids place.id.shortroomid
      place.id.raw (bodyOf place.id)
  | .deindex shortroomid place => deindexPdu unicode tokenids shortroomid
      place.id.raw (bodyOf place.id)

def performAll (calls : List Call) : Tokenids :=
  calls.foldl (Call.perform unicode bodyOf) .empty

/-- The index holds the words of the recorded events, each in its own room. -/
structure Indexes (tokenids : Tokenids) (indexed : Indexed) : Prop where
  keys : ∀ key, (key, ()) ∈ tokenids ↔ ∃ room id word,
    (room, id) ∈ indexed ∧ word ∈ tokenize unicode (bodyOf id) ∧
      key = tokenKey room word id.raw
  places : ∀ room id, (room, id) ∈ indexed →
    id.shortroomid = room ∧ id.shorteventid.Drawn

variable {unicode bodyOf} {tokenids : Tokenids} {indexed : Indexed}

theorem tokenKey_place_inj {room otherRoom : ShortRoomId}
    {word otherWord : String} {id other : PduId}
    (same : tokenKey room word id.raw = tokenKey otherRoom otherWord
      other.raw) : room = otherRoom ∧ word = otherWord ∧ id = other := by
  obtain ⟨rooms, words, raws⟩ := tokenKey_inj same
  refine ⟨rooms, words, raw_injective ?_⟩
  cases isRaw : id.raw with
  | mk bytes isLength =>
      cases isOther : other.raw with
      | mk otherBytes otherLength =>
          rw [isRaw, isOther] at raws
          cases raws
          rfl

variable {room : ShortRoomId} {id : PduId} {body : String} {key : Key}

theorem mem_indexPdu : (key, ()) ∈ indexPdu unicode tokenids room id.raw body ↔
      (key, ()) ∈ tokenids ∨
        ∃ word ∈ tokenize unicode body, key = tokenKey room word id.raw := by
  have listed : (key, ()) ∈ (tokenize unicode body).map
      (fun word => (tokenKey room word id.raw, ())) ↔
        ∃ word ∈ tokenize unicode body, key = tokenKey room word id.raw := by
    simp [eq_comm]
  unfold indexPdu
  constructor
  · intro member
    exact (mem_or_mem_of_mem_putAll member).imp_right listed.mp
  · intro either
    exact mem_putAll (fun other _ same => Prod.ext same rfl)
      (either.imp_right listed.mpr)

theorem mem_deindexPdu :
    (key, ()) ∈ deindexPdu unicode tokenids room id.raw body ↔
      (key, ()) ∈ tokenids ∧
        ¬ ∃ word ∈ tokenize unicode body, key = tokenKey room word id.raw := by
  unfold deindexPdu
  rw [mem_eraseAll, mem_map]
  simp only [eq_comm]

section

variable (indexes : Indexes unicode bodyOf tokenids indexed)
include indexes

theorem Indexes.index (place : EventPlace) :
    Indexes unicode bodyOf ((Call.index place).perform unicode bodyOf tokenids)
      ((Call.index place).record indexed) := by
  constructor
  · intro key
    refine mem_indexPdu.trans ?_
    rw [indexes.keys]
    constructor
    · rintro (⟨room, id, word, member, token, isKey⟩ | ⟨word, token, isKey⟩)
      · exact ⟨room, id, word, Finset.mem_insert_of_mem member, token, isKey⟩
      · exact ⟨_, place.id, word, Finset.mem_insert_self _ _, token, isKey⟩
    · intro ⟨room, id, word, member, token, isKey⟩
      rcases Finset.mem_insert.mp member with new | old
      · cases new
        exact .inr ⟨word, token, isKey⟩
      · exact .inl ⟨room, id, word, old, token, isKey⟩
  · intro room id member
    rcases Finset.mem_insert.mp member with new | old
    · cases new
      exact ⟨rfl, place.drawn⟩
    · exact indexes.places room id old

theorem Indexes.deindex (shortroomid : ShortRoomId) (place : EventPlace) :
    Indexes unicode bodyOf
      ((Call.deindex shortroomid place).perform unicode bodyOf tokenids)
      ((Call.deindex shortroomid place).record indexed) := by
  constructor
  · intro key
    refine mem_deindexPdu.trans ?_
    rw [indexes.keys]
    constructor
    · intro ⟨⟨room, id, word, member, token, isKey⟩, kept⟩
      refine ⟨room, id, word, Finset.mem_erase.mpr ⟨?_, member⟩, token, isKey⟩
      intro same
      cases same
      exact kept ⟨word, token, isKey⟩
    · intro ⟨room, id, word, member, token, isKey⟩
      obtain ⟨apart, old⟩ := Finset.mem_erase.mp member
      refine ⟨⟨room, id, word, old, token, isKey⟩, ?_⟩
      intro ⟨other, _, isOther⟩
      obtain ⟨rooms, _, ids⟩ := tokenKey_place_inj (isKey.symm.trans isOther)
      exact apart (Prod.ext rooms ids)
  · intro room id member
    exact indexes.places room id (Finset.mem_of_mem_erase member)

theorem Indexes.call (call : Call) :
    Indexes unicode bodyOf (call.perform unicode bodyOf tokenids)
      (call.record indexed) := by
  cases call with
  | index place => exact indexes.index place
  | deindex shortroomid place => exact indexes.deindex shortroomid place

end

theorem indexes_performAll (calls : List Call) :
    Indexes unicode bodyOf (performAll unicode bodyOf calls)
      (recordAll calls) := by
  unfold performAll recordAll
  have start : Indexes unicode bodyOf .empty ∅ := by
    constructor
    · intro key
      constructor
      · intro member
        exact absurd member not_mem_empty
      · intro ⟨room, id, word, member, _⟩
        exact absurd member (Finset.notMem_empty _)
    · intro room id member
      exact absurd member (Finset.notMem_empty _)
  revert start
  generalize (empty : Tokenids) = tokenids, (∅ : Indexed) = indexed
  intro start
  induction calls generalizing tokenids indexed with
  | nil => exact start
  | cons call rest ih => exact ih _ _ (start.call call)

end

/-- The key of the word and an id of an event has room in the buffer. -/
def FitsKey (word : String) : Prop := prefixLen word + 16 ≤ tokenIdMaxLen

section

variable {room : ShortRoomId} {word : String}

theorem TokenId.extendFromSlice_ok {key : TokenId} {other : Key}
    (fits : (key.bytes ++ other).length ≤ tokenIdMaxLen) :
    ∃ extended, key.extendFromSlice other = .ok extended ∧
      extended.bytes = key.bytes ++ other :=
  ⟨_, dif_pos fits, rfl⟩

theorem makePrefix_ok (fits : FitsKey word) :
    ∃ key, makePrefix room word = .ok key ∧
      key.bytes = tokenPrefix room word := by
  have length := @tokenPrefix_length room word
  unfold FitsKey at fits
  unfold tokenPrefix at length ⊢
  simp only [length_append, length_singleton] at length
  obtain ⟨first, extendedFirst, isFirst⟩ :=
    @extendFromSlice_ok TokenId.new (u64Bytes room) (by
      rw [length_append]
      change 0 + _ ≤ _
      omega)
  obtain ⟨second, extendedSecond, isSecond⟩ :=
    @extendFromSlice_ok first (strBytes word) (by
      rw [isFirst, length_append, length_append]
      change 0 + _ + _ ≤ _
      omega)
  have pushed : (second.bytes ++ [separator]).length ≤ tokenIdMaxLen := by
    rw [isSecond, isFirst]
    simp only [length_append, length_singleton]
    change 0 + _ + _ + 1 ≤ _
    omega
  refine ⟨⟨second.bytes ++ [separator], pushed⟩, ?_, ?_⟩
  · unfold makePrefix
    rw [extendedFirst, ok_bind, extendedSecond, ok_bind]
    exact dif_pos pushed
  · change second.bytes ++ [separator] = _
    rw [isSecond, isFirst, append_assoc]
    rfl

theorem makeTokenid_ok (fits : FitsKey word) {raw : RawPduId}
    (short : raw.bytes.length = 16) :
    ∃ key, makeTokenid room word raw = .ok key ∧
      key.bytes = tokenPrefix room word ++ raw.bytes := by
  obtain ⟨start, made, isStart⟩ := @makePrefix_ok room word fits
  obtain ⟨key, extended, isKey⟩ :=
    @extendFromSlice_ok start raw.bytes (by
      rw [isStart, length_append, tokenPrefix_length, short]
      exact fits)
  refine ⟨key, ?_, by rw [isKey, isStart]⟩
  unfold makeTokenid
  rw [made, ok_bind]
  exact extended

end

section

variable {unicode : Unicode} {bodyOf : PduId → String} {tokenids : Tokenids}
  {indexed : Indexed} {room : ShortRoomId} {word : String}

section

variable (indexes : Indexes unicode bodyOf tokenids indexed)
include indexes

/-- No key of the word lies behind the place where the search begins. -/
theorem searchPduIdsQueryWord_ok (fits : FitsKey word) :
    searchPduIdsQueryWord tokenids room word =
      .ok ((tokenids.rows.filter (fun row =>
        (tokenPrefix room word).isPrefixOf row.1)).reverse.map Prod.fst) := by
  obtain ⟨finish, madeFinish, isFinish⟩ := @makeTokenid_ok room word fits
    (mk room .max).raw rfl
  obtain ⟨start, madeStart, isStart⟩ := @makePrefix_ok room word fits
  have scanned : tokenids.rows.filter (fun row =>
      !decide (finish.bytes < row.1) && start.bytes.isPrefixOf row.1) =
        tokenids.rows.filter (fun row =>
          (tokenPrefix room word).isPrefixOf row.1) := by
    refine filter_congr (fun row member => ?_)
    rw [isStart]
    cases begins : (tokenPrefix room word).isPrefixOf row.1 with
    | false => rw [Bool.and_false]
    | true =>
        obtain ⟨otherRoom, id, otherWord, listed, _, isKey⟩ :=
          (indexes.keys row.1).mp member
        have starts := isPrefixOf_iff_prefix.mp begins
        rw [isKey] at starts
        obtain ⟨rooms, words⟩ := tokenPrefix_prefix_iff.mp starts
        obtain ⟨ownRoom, drawn⟩ := indexes.places otherRoom id listed
        have within : ¬ finish.bytes < row.1 := by
          rw [isKey, isFinish, ← rooms, ← words, tokenKey_eq,
            append_lt_append_left_iff, rooms, ← ownRoom]
          exact not_max_lt_raw drawn
        rw [Bool.and_true, decide_eq_false within, Bool.not_false]
  unfold searchPduIdsQueryWord
  dsimp only
  rw [madeFinish, ok_bind, madeStart, ok_bind,
    scanPrefixRev_eq_filter _ (by
      rw [isStart, isFinish]
      exact prefix_append _ _), scanned]
  rfl

/-- The events of the room that the index has and that are wanted, the newest
first. -/
structure Finds (indexed : Indexed) (room : ShortRoomId)
    (wanted : PduId → Prop) (ids : List PduId) : Prop where
  newestFirst : ids.Pairwise (fun newer older =>
    older.shorteventid.intoSigned < newer.shorteventid.intoSigned)
  mem_iff : ∀ id, id ∈ ids ↔ (room, id) ∈ indexed ∧ wanted id

theorem keys_find :
    ∃ ids, (tokenids.rows.filter (fun row =>
        (tokenPrefix room word).isPrefixOf row.1)).reverse.map Prod.fst =
          ids.map (fun id => tokenKey room word id.raw) ∧
      Finds indexed room (fun id => word ∈ tokenize unicode (bodyOf id))
        ids := by
  generalize isKeys : (tokenids.rows.filter (fun row =>
    (tokenPrefix room word).isPrefixOf row.1)).reverse.map Prod.fst = keys
  have listed : ∀ key, key ∈ keys ↔
      (key, ()) ∈ tokenids ∧ tokenPrefix room word <+: key := by
    intro key
    rw [← isKeys, map_reverse, mem_reverse, mem_map]
    constructor
    · intro ⟨row, member, isKey⟩
      obtain ⟨inside, begins⟩ := mem_filter.mp member
      rw [← isKey]
      exact ⟨inside, isPrefixOf_iff_prefix.mp begins⟩
    · intro ⟨member, starts⟩
      exact ⟨(key, ()), mem_filter.mpr
        ⟨member, isPrefixOf_iff_prefix.mpr starts⟩, rfl⟩
  have named : ∀ id, tokenKey room word id.raw ∈ keys ↔
      (room, id) ∈ indexed ∧ word ∈ tokenize unicode (bodyOf id) := by
    intro id
    rw [listed, indexes.keys]
    constructor
    · intro ⟨⟨otherRoom, other, otherWord, member, token, isKey⟩, _⟩
      obtain ⟨rooms, words, ids⟩ := tokenKey_place_inj isKey
      rw [rooms, words, ids]
      exact ⟨member, token⟩
    · intro ⟨member, token⟩
      exact ⟨⟨room, id, word, member, token, rfl⟩,
        tokenPrefix_prefix_iff.mpr ⟨rfl, rfl⟩⟩
  have all : ∀ key ∈ keys, key ∈ Set.range
      (fun id : PduId => tokenKey room word id.raw) := by
    intro key member
    obtain ⟨inside, starts⟩ := (listed key).mp member
    obtain ⟨otherRoom, id, otherWord, _, _, isKey⟩ :=
      (indexes.keys key).mp inside
    rw [isKey] at starts ⊢
    obtain ⟨rooms, words⟩ := tokenPrefix_prefix_iff.mp starts
    exact ⟨id, by rw [rooms, words]⟩
  have inRange : keys ∈ Set.range
      (map (fun id : PduId => tokenKey room word id.raw)) := by
    rw [Set.range_list_map]
    exact all
  obtain ⟨ids, isMap⟩ := inRange
  have mem_iff : ∀ id, id ∈ ids ↔
      (room, id) ∈ indexed ∧ word ∈ tokenize unicode (bodyOf id) := by
    intro id
    rw [← named id, ← isMap, mem_map_of_injective]
    intro one other same
    exact (tokenKey_place_inj same).2.2
  have downward : keys.Pairwise (fun later earlier => earlier < later) := by
    rw [← isKeys, pairwise_map, pairwise_reverse]
    exact tokenids.sorted.filter _
  refine ⟨ids, isMap.symm, ?_, mem_iff⟩
  rw [← isMap, pairwise_map] at downward
  refine downward.imp_of_mem (fun {newer older} newerIn olderIn less => ?_)
  obtain ⟨newerRoom, newerDrawn⟩ :=
    indexes.places room newer ((mem_iff newer).mp newerIn).1
  obtain ⟨olderRoom, olderDrawn⟩ :=
    indexes.places room older ((mem_iff older).mp olderIn).1
  rw [tokenKey_eq, tokenKey_eq, append_lt_append_left_iff] at less
  exact (raw_lt_iff (olderRoom.trans newerRoom.symm) olderDrawn
    newerDrawn).mp less

theorem searchPduIdsQueryWords_finds (fits : FitsKey word) :
    ∃ ids, searchPduIdsQueryWords tokenids room word = .ok (ids.map raw) ∧
      Finds indexed room (fun id => word ∈ tokenize unicode (bodyOf id))
        ids := by
  obtain ⟨ids, isKeys, finds⟩ := @keys_find _ _ _ _ room word indexes
  refine ⟨ids, ?_, finds⟩
  unfold searchPduIdsQueryWords
  rw [searchPduIdsQueryWord_ok indexes fits, ok_bind, isKeys,
    @mapM_eq_ok_map _ _ _ _ (fun key => (RawPduId.parse
      (key.drop (prefixLen word))).getD (mk room .max).raw)]
  · rw [map_map]
    refine congrArg Except.ok (map_congr_left (fun id _ => ?_))
    change (RawPduId.parse ((tokenKey room word id.raw).drop _)).getD _ = _
    rw [tokenKey_eq, drop_left' tokenPrefix_length, RawPduId.parse_bytes]
    rfl
  · intro key member
    obtain ⟨id, _, isKey⟩ := mem_map.mp member
    rw [← isKey, tokenKey_eq, drop_left' tokenPrefix_length]
    unfold rawPduId
    rw [RawPduId.parse_bytes]
    rfl

end

end

section

variable {unicode : Unicode} {bodyOf : PduId → String} {tokenids : Tokenids}
  {indexed : Indexed} {room : ShortRoomId}

/-- A list of events for every word, of which the intersection is taken. -/
theorem finds_words {words : List String}
    (indexes : Indexes unicode bodyOf tokenids indexed)
    (fits : ∀ word ∈ words, FitsKey word) :
    ∃ lists : List (List PduId),
      words.mapM (searchPduIdsQueryWords tokenids room) =
          .ok (lists.map (map raw)) ∧
        List.Forall₂ (fun word ids => Finds indexed room
          (fun id => word ∈ tokenize unicode (bodyOf id)) ids) words lists := by
  induction words with
  | nil => exact ⟨[], rfl, .nil⟩
  | cons word rest ih =>
      obtain ⟨ids, searched, finds⟩ := @searchPduIdsQueryWords_finds _ _ _ _
        room word indexes (fits word mem_cons_self)
      obtain ⟨lists, others, rests⟩ := ih
        (fun other member => fits other (mem_cons_of_mem _ member))
      refine ⟨ids :: lists, ?_, .cons finds rests⟩
      rw [mapM_cons, searched, ok_bind, others, ok_bind]
      rfl

theorem intersection_map {α β : Type} [DecidableEq α] [DecidableEq β]
    {f : α → β} (injective : Function.Injective f) (lists : List (List α)) :
    intersection (lists.map (map f)) = (intersection lists).map f := by
  cases lists with
  | nil => rfl
  | cons first rest =>
      simp only [map_cons, intersection]
      rw [filter_map]
      refine congrArg (map f) (filter_congr (fun item _ => ?_))
      simp [Function.comp_def, all_map, any_map, injective.eq_iff]

theorem mem_rest_iff {words : List String} {lists : List (List PduId)}
    (finds : List.Forall₂ (fun word ids => Finds indexed room
      (fun id => word ∈ tokenize unicode (bodyOf id)) ids) words lists)
    {id : PduId} (listed : (room, id) ∈ indexed) :
    (∀ other ∈ lists, id ∈ other) ↔
      ∀ token ∈ words, token ∈ tokenize unicode (bodyOf id) := by
  induction finds with
  | nil => simp
  | @cons word ids words lists first _ ih =>
      rw [forall_mem_cons, ih, first.mem_iff, forall_mem_cons,
        and_iff_right listed]

theorem intersection_finds {words : List String} {lists : List (List PduId)}
    (some : words ≠ [])
    (finds : List.Forall₂ (fun word ids => Finds indexed room
      (fun id => word ∈ tokenize unicode (bodyOf id)) ids) words lists) :
    Finds indexed room
      (fun id => ∀ token ∈ words, token ∈ tokenize unicode (bodyOf id))
      (intersection lists) := by
  cases finds with
  | nil => exact absurd rfl some
  | @cons word ids words lists first rest =>
      constructor
      · exact first.newestFirst.filter _
      · intro id
        rw [mem_intersection, first.mem_iff, forall_mem_cons]
        constructor
        · intro ⟨⟨listed, token⟩, others⟩
          exact ⟨listed, token, (mem_rest_iff rest listed).mp others⟩
        · intro ⟨listed, token, others⟩
          exact ⟨⟨listed, token⟩, (mem_rest_iff rest listed).mpr others⟩

end

section

variable (unicode : Unicode) (bodyOf : PduId → String) (calls : List Call)

/-- A search finds exactly the events of the room that are in the index and
whose messages have every word of the query, the newest first. -/
theorem searchPduIds_finds
    {getShortroomid : RoomId → Except Failure ShortRoomId} {query : RoomQuery}
    {room : ShortRoomId} (isRoom : getShortroomid query.roomId = .ok room)
    (some : tokenize unicode query.searchTerm ≠ [])
    (fits : ∀ word ∈ tokenize unicode query.searchTerm, FitsKey word) :
    ∃ ids : List PduId,
      searchPduIds unicode (performAll unicode bodyOf calls) getShortroomid
          query = .ok (ids.map raw) ∧
        ids.Nodup ∧
        Finds (recordAll calls) room
          (fun id => ∀ word ∈ tokenize unicode query.searchTerm,
            word ∈ tokenize unicode (bodyOf id)) ids := by
  have indexes := @indexes_performAll unicode bodyOf calls
  obtain ⟨lists, searched, finds⟩ := @finds_words _ _ _ _ room _ indexes fits
  have found := intersection_finds some finds
  refine ⟨intersection lists, ?_, ?_, found⟩
  · unfold searchPduIds searchPduIdsQueryRoom
    rw [isRoom, ok_bind, searched, ok_bind,
      intersection_map raw_injective]
    rfl
  · refine found.newestFirst.imp (fun {newer older} less same => ?_)
    rw [same] at less
    exact Int64.lt_irrefl less

/-- Every word of the text that is short enough has at most 59 bytes in lower
case. -/
def LowersWithin (text : String) : Prop :=
  ∀ word ∈ splitTerminator (fun char => !unicode.isAlphanumeric char) text,
    word ≠ "" → word.utf8ByteSize ≤ wordMaxLen →
      (strBytes (unicode.toLowercase word)).length ≤ 59

theorem lowersWithin_iff {unicode : Unicode} {text : String} :
    LowersWithin unicode text ↔ ∀ word ∈ tokenize unicode text,
      FitsKey word := by
  have room (word : String) : FitsKey word ↔ (strBytes word).length ≤ 59 := by
    unfold FitsKey prefixLen tokenIdMaxLen wordMaxLen
    omega
  unfold LowersWithin tokenize
  simp only [room, forall_mem_map, mem_filter, and_imp,
    Bool.not_eq_true', String.isEmpty_eq_false_iff, decide_eq_true_eq, ne_eq]

theorem TokenId.bytes_of_extendFromSlice {key extended : TokenId} {other : Key}
    (result : key.extendFromSlice other = .ok extended) :
    extended.bytes = key.bytes ++ other := by
  unfold extendFromSlice at result
  split at result
  · cases result
    rfl
  · cases result

theorem TokenId.bytes_of_push {key pushed : TokenId} {byte : Sending.Byte}
    (result : key.push byte = .ok pushed) :
    pushed.bytes = key.bytes ++ [byte] := by
  unfold push at result
  split at result
  · cases result
    rfl
  · cases result

theorem bytes_of_makeTokenid {room : ShortRoomId} {word : String}
    {raw : RawPduId} {key : TokenId}
    (result : makeTokenid room word raw = .ok key) :
    key.bytes = tokenPrefix room word ++ raw.bytes := by
  obtain ⟨start, made, result⟩ := bind_eq_ok result
  obtain ⟨first, extended, made⟩ := bind_eq_ok made
  obtain ⟨second, again, made⟩ := bind_eq_ok made
  rw [bytes_of_extendFromSlice result, bytes_of_push made,
    bytes_of_extendFromSlice again,
    bytes_of_extendFromSlice extended]
  unfold tokenPrefix
  rw [← append_assoc (u64Bytes room)]
  rfl

theorem searchPduIds_safe_iff (query : RoomQuery) (room : ShortRoomId) :
    ((∀ word ∈ tokenize unicode query.searchTerm,
        (∃ key, makePrefix room word = .ok key) ∧
        ∃ key, makeTokenid room word (mk room .max).raw = .ok key) ∧
      ∀ message, searchPduIds unicode (performAll unicode bodyOf calls)
        (fun _ => .ok room) query ≠ .error (.panic message)) ↔
      LowersWithin unicode query.searchTerm := by
  rw [lowersWithin_iff]
  constructor
  · rintro ⟨made, _⟩ word token
    obtain ⟨key, made⟩ := (made word token).2
    have fits := key.fits
    rw [bytes_of_makeTokenid made, length_append, tokenPrefix_length] at fits
    exact fits
  · intro fits
    refine ⟨fun word token => ?_, fun message failed => ?_⟩
    · obtain ⟨start, made, _⟩ := @makePrefix_ok room word (fits word token)
      obtain ⟨key, extended, _⟩ := @makeTokenid_ok room word (fits word token)
        (mk room .max).raw rfl
      exact ⟨⟨start, made⟩, key, extended⟩
    · obtain ⟨lists, searched, _⟩ := @finds_words _ _ _ _ room _
        (@indexes_performAll unicode bodyOf calls) fits
      unfold searchPduIds searchPduIdsQueryRoom at failed
      rw [ok_bind, searched, ok_bind] at failed
      cases failed

end

namespace Greetings

def ascii : Unicode where
  isAlphanumeric := Char.isAlphanum
  toLowercase := String.toLower

def first : EventPlace where
  id := { shortroomid := 7, shorteventid := .normal 1 }
  drawn := by constructor <;> decide

def second : EventPlace where
  id := { shortroomid := 7, shorteventid := .normal 2 }
  drawn := by constructor <;> decide

def older : EventPlace where
  id := { shortroomid := 7, shorteventid := .backfilled (-3) }
  drawn := by
    change (-3 : Int64) < 0
    decide

def bodyOf (id : PduId) : String :=
  match id.shorteventid with
  | .normal 1 => "Hello, room!"
  | .normal _ => "Good bye"
  | .backfilled _ => "hello (again)"

def calls : List Call :=
  [.index first, .index second, .index older, .deindex 9 first]

def query : RoomQuery where
  roomId := "!room"
  searchTerm := "HELLO"

theorem query_finds : ∃ ids : List PduId,
      searchPduIds ascii (performAll ascii bodyOf calls) (fun _ => .ok 7)
          query = .ok (ids.map raw) ∧
        ids.Nodup ∧
        Finds (recordAll calls) 7
          (fun id => ∀ word ∈ tokenize ascii query.searchTerm,
            word ∈ tokenize ascii (bodyOf id)) ids :=
  searchPduIds_finds ascii bodyOf calls rfl (by decide +kernel)
    (by
      unfold FitsKey
      decide +kernel)

example : searchPduIds ascii (performAll ascii bodyOf calls)
    (fun _ => .ok 7) query = .ok [first.id.raw, older.id.raw] := by
  decide +kernel

end Greetings

namespace Stroked

/-- Of two letters with a stroke the small one has a byte more. -/
def letters : Unicode where
  isAlphanumeric char := char.isAlphanum || char == 'Ⱥ'
  toLowercase text := String.ofList (text.toList.map (fun char =>
    if char = 'Ⱥ' then 'ⱥ' else char.toLower))

def query : RoomQuery where
  roomId := "!room"
  searchTerm := "ȺȺȺȺȺȺȺȺȺȺȺȺȺȺȺȺȺȺȺȺȺȺȺȺȺ"

theorem search_panics :
    searchPduIds letters (performAll letters (fun _ => "") [])
      (fun _ => .ok 7) query =
        .error (.panic ("Insufficient buffer capacity to extend from slice: " ++
          "CapacityError: insufficient capacity")) := by
  decide +kernel

end Stroked

end ArcanaServer.Rooms.Search
