import ArcanaServer.KeyBackups.Service
import ArcanaServer.Library.Ordered
import ArcanaServer.Library.Trace

namespace ArcanaServer.Sync

open Library ArcanaServer.Matrix Database Bool
open KeyBackups (Reader parseChecked plainReader)
open List SortedTable

/-! The rows of the to-device events, and the scans from a key that is made up
of a user, a device and a count. -/

@[ext] structure ToDeviceId (reader : Reader) where
  userId : reader.UserId
  deviceId : String
  count : UInt64
  deriving DecidableEq

namespace ToDeviceId

variable {reader : Reader}

def key (id : ToDeviceId reader) : Key :=
  joined [.str id.userId, .str id.deviceId, .u64 id.count]

def read (reader : Reader) (key : Key) : Option (ToDeviceId reader) :=
  match fromSlice reader.debug [.str, .str, .u64] key with
  | .ok [.component (.str userId), .component (.str deviceId),
      .component (.u64 count)] =>
      (parseChecked reader.isUserId userId).map (⟨·, deviceId, count⟩)
  | _ => none

def Of (id : ToDeviceId reader) (userId : reader.UserId)
    (deviceId : String) : Prop :=
  id.userId = userId ∧ id.deviceId = deviceId

instance (id : ToDeviceId reader) (userId : reader.UserId)
    (deviceId : String) : Decidable (id.Of userId deviceId) :=
  inferInstanceAs (Decidable (_ ∧ _))

variable {id other : ToDeviceId reader} {userId : reader.UserId}
  {deviceId : String}

theorem read_key : read reader id.key = some id := by
  let parts : List Component :=
    [.str id.userId, .str id.deviceId, .u64 id.count]
  have fits : ∀ part ∈ parts, part.Fits := by
    simp [parts, Component.Fits]
  have delimited : Deserializer.Delimited parts := by
    simp [parts, Deserializer.Delimited, Component.Raw]
  obtain ⟨buf, written, isRead⟩ := fromSlice_serializeToVec reader.debug parts
    (by simp [parts]) fits delimited
  rw [serializeToVec_components] at written
  cases written
  have whole : fromSlice reader.debug [.str, .str, .u64] id.key =
      .ok [.component (.str id.userId), .component (.str id.deviceId),
        .component (.u64 id.count)] := isRead
  unfold read
  rw [whole]
  simp only [parseChecked, dif_pos id.userId.property, Option.map_some]

theorem key_injective : Function.Injective (key : ToDeviceId reader → Key) := by
  intro first second same
  have reads := congrArg (read reader) same
  rw [read_key, read_key] at reads
  exact Option.some.inj reads

theorem key_eq_closed : id.key =
    closed [.str id.userId, .str id.deviceId] ++ u64Bytes id.count := by
  have whole := joined_append [.str id.userId, .str id.deviceId]
    (cons_ne_nil (.u64 id.count) [])
  have last : joined [.u64 id.count] = u64Bytes id.count := append_nil _
  rw [last] at whole
  exact whole

theorem textPrefix_prefix_key_iff :
    textPrefix [userId.val, deviceId] <+: id.key ↔ id.Of userId deviceId := by
  have lengths : [userId.val, deviceId].length =
      [id.userId.val, id.deviceId].length := rfl
  have parts : textPrefix [userId.val, deviceId] <+: joined
      ([id.userId.val, id.deviceId].map .str ++ [.u64 id.count]) ↔ _ :=
    textPrefix_joined_iff lengths (cons_ne_nil _ _)
  refine parts.trans ?_
  unfold Of
  rw [cons.injEq, cons.injEq, Subtype.val_inj, eq_comm, @eq_comm _ deviceId]
  exact and_congr_right' (and_iff_left rfl)

theorem key_lt_key_iff (users : id.userId = other.userId)
    (devices : id.deviceId = other.deviceId) :
    id.key < other.key ↔ id.count < other.count := by
  rw [key_eq_closed, key_eq_closed, users, devices,
    append_lt_append_left_iff, u64Bytes_lt_iff]

end ToDeviceId

structure ToDeviceStore where
  counter : UInt64
  todeviceidEvents : SortedTable Key Json

inductive ToDeviceCall (reader : Reader) where
  | addToDeviceEvent (sender : UserId) (targetUserId : reader.UserId)
      (targetDeviceId : String) (eventType : String) (content : Json)
  | getToDeviceEvents (userId : reader.UserId) (deviceId : String)
      (since upTo : Option UInt64)
  | removeToDeviceEvents (userId : reader.UserId) (deviceId : String)
      (upTo : Option UInt64)
  | nextCount

inductive ToDeviceAnswer where
  | added (count : UInt64)
  | events (events : List (UInt64 × Json))
  | done

def toDeviceJson (sender : UserId) (eventType : String) (content : Json) :
    Json :=
  .obj [("type", .str eventType), ("sender", .str sender),
    ("content", content)]

namespace ToDeviceStore

def empty (counter : UInt64) : ToDeviceStore := ⟨counter, .empty⟩

section

variable {reader : Reader} (store : ToDeviceStore) (userId : reader.UserId)
  (deviceId : String)

def addToDeviceEvent (sender : UserId) (eventType : String)
    (content : Json) : ToDeviceStore where
  counter := saturatingInc store.counter
  todeviceidEvents := store.todeviceidEvents.put
    (ToDeviceId.mk userId deviceId (saturatingInc store.counter)).key
    (toDeviceJson sender eventType content)

def readRow (reader : Reader) (row : Key × Json) :
    Option (ToDeviceId reader × Json) :=
  (ToDeviceId.read reader row.1).map (·, row.2)

def firstCount (since : Option UInt64) : UInt64 := since.elim 0 saturatingInc

def getToDeviceEvents (since upTo : Option UInt64) : List (UInt64 × Json) :=
  let from_ := ToDeviceId.mk userId deviceId (firstCount since)
  let rows := store.todeviceidEvents.rows.dropWhile fun row => row.1 < from_.key
  ((rows.filterMap (readRow reader)).takeWhile fun event =>
    event.1.Of userId deviceId ∧ upTo.all (event.1.count ≤ ·)).map
      fun event => (event.1.count, event.2)

def removedIds (upTo : Option UInt64) : List (ToDeviceId reader) :=
  let from_ := ToDeviceId.mk userId deviceId (upTo.getD lastCount)
  let rows := store.todeviceidEvents.rows.reverse.dropWhile
    fun row => from_.key < row.1
  (rows.filterMap (ToDeviceId.read reader ·.1)).takeWhile
    fun id => id.Of userId deviceId

def removeToDeviceEvents (upTo : Option UInt64) : ToDeviceStore :=
  { store with
    todeviceidEvents := store.todeviceidEvents.eraseAll
      ((store.removedIds userId deviceId upTo).map ToDeviceId.key) }

def step (store : ToDeviceStore) :
    ToDeviceCall reader → ToDeviceStore × ToDeviceAnswer
  | .addToDeviceEvent sender userId deviceId eventType content =>
      (store.addToDeviceEvent userId deviceId sender eventType content,
        .added (saturatingInc store.counter))
  | .getToDeviceEvents userId deviceId since upTo =>
      (store, .events (store.getToDeviceEvents userId deviceId since upTo))
  | .removeToDeviceEvents userId deviceId upTo =>
      (store.removeToDeviceEvents userId deviceId upTo, .done)
  | .nextCount =>
      ({ store with counter := saturatingInc store.counter }, .done)

end

end ToDeviceStore

abbrev Pending (reader : Reader) := List (ToDeviceId reader × Json)

namespace Pending

variable {reader : Reader}

def after (pending : Pending reader) :
    ToDeviceCall reader → ToDeviceAnswer → Pending reader
  | .addToDeviceEvent sender userId deviceId eventType content,
      .added count =>
      pending ++
        [(⟨userId, deviceId, count⟩, toDeviceJson sender eventType content)]
  | .removeToDeviceEvents userId deviceId upTo, _ =>
      pending.filter fun event => ¬ (event.1.Of userId deviceId ∧
        upTo.all (event.1.count ≤ ·))
  | _, _ => pending

def ofHistory (history : List (Entry ToDeviceStore (ToDeviceCall reader)
    ToDeviceAnswer)) : Pending reader :=
  history.foldl (fun pending entry => pending.after entry.input entry.output) []

def within (pending : Pending reader) (userId : reader.UserId)
    (deviceId : String) (since upTo : Option UInt64) :
    List (UInt64 × Json) :=
  (pending.filter fun event => event.1.Of userId deviceId ∧
    since.all (· < event.1.count) ∧ upTo.all (event.1.count ≤ ·)).map
      fun event => (event.1.count, event.2)

def Tells (pending : Pending reader) :
    ToDeviceCall reader → ToDeviceAnswer → Prop
  | .addToDeviceEvent _ _ _ _ _, answer => ∃ count, answer = .added count ∧
      ∀ event ∈ pending, event.1.count < count
  | .getToDeviceEvents userId deviceId since upTo, answer =>
      answer = .events (pending.within userId deviceId since upTo)
  | _, answer => answer = .done

end Pending

namespace ToDeviceStore

variable {reader : Reader}

def Represents (store : ToDeviceStore) (pending : Pending reader) : Prop :=
  ∀ key content, (key, content) ∈ store.todeviceidEvents ↔
    ∃ id, (id, content) ∈ pending ∧ id.key = key

/-- The pending events stand in the order of their counts, none of which is
still to be drawn. -/
structure Sound (store : ToDeviceStore) (pending : Pending reader) : Prop where
  represents : store.Represents pending
  ordered : pending.Pairwise fun event later =>
    event.1.count < later.1.count
  drawn : ∀ event ∈ pending, event.1.count ≤ store.counter ∧
    event.1.count ≠ lastCount

section

variable {store : ToDeviceStore} {pending : Pending reader}
  {userId : reader.UserId} {deviceId : String}

theorem readRow_key (id : ToDeviceId reader) (content : Json) :
    readRow reader (id.key, content) = some (id, content) := by
  unfold readRow
  rw [ToDeviceId.read_key]
  rfl

def begins (userId : reader.UserId) (deviceId : String)
    (upTo : Option UInt64) (key : Key) : Bool :=
  (textPrefix [userId.val, deviceId]).isPrefixOf key &&
    upTo.all fun count => key ≤ (ToDeviceId.mk userId deviceId count).key

theorem begins_key_iff {id : ToDeviceId reader} {upTo : Option UInt64} :
    begins userId deviceId upTo id.key = true ↔
      id.Of userId deviceId ∧ upTo.all (id.count ≤ ·) = true := by
  unfold begins
  rw [and_eq_true, isPrefixOf_iff_prefix,
    ToDeviceId.textPrefix_prefix_key_iff]
  refine and_congr_right fun isOf => ?_
  cases upTo with
  | none => exact Iff.rfl
  | some count =>
      have order : (ToDeviceId.mk userId deviceId count).key < id.key ↔
          count < id.count :=
        ToDeviceId.key_lt_key_iff isOf.1.symm isOf.2.symm
      rw [Option.all_some, Option.all_some, decide_eq_true_eq,
        decide_eq_true_eq, ← not_lt, order, UInt64.not_lt]

theorem begins_between (upTo : Option UInt64) {from_ : ToDeviceId reader}
    (isOf : from_.Of userId deviceId) {lesser greater : Key}
    (less : lesser < greater) (above : ¬ lesser < from_.key)
    (ends : begins userId deviceId upTo greater = true) :
    begins userId deviceId upTo lesser = true := by
  unfold begins at ends ⊢
  rw [and_eq_true, isPrefixOf_iff_prefix] at ends ⊢
  obtain ⟨starts, bounded⟩ := ends
  have start := ToDeviceId.textPrefix_prefix_key_iff.mpr isOf
  refine ⟨prefix_of_between ?_ less starts, ?_⟩
  · intro below
    exact not_lt_of_prefix start ((not_lt.mp above).trans_lt below)
  · cases upTo with
    | none => rfl
    | some count =>
        rw [Option.all_some, decide_eq_true_eq] at bounded ⊢
        exact less.le.trans bounded

section

variable (represents : store.Represents pending)
include represents

theorem readRow_within (upTo : Option UInt64) {row : Key × Json}
    (member : row ∈ store.todeviceidEvents.rows) :
    ∃ event, readRow reader row = some event ∧
      decide (event.1.Of userId deviceId ∧
        upTo.all (event.1.count ≤ ·) = true) =
          begins userId deviceId upTo row.1 := by
  obtain ⟨key, content⟩ := row
  obtain ⟨id, _, isKey⟩ := (represents key content).mp member
  subst isKey
  refine ⟨(id, content), readRow_key id content, ?_⟩
  exact eq_iff_iff.mpr (decide_eq_true_iff.trans begins_key_iff.symm)

variable (since upTo : Option UInt64)

theorem getToDeviceEvents_eq :
    store.getToDeviceEvents userId deviceId since upTo =
      ((store.todeviceidEvents.rows.filter fun row =>
        !decide (row.1 < (ToDeviceId.mk userId deviceId
          (firstCount since)).key) && begins userId deviceId upTo
            row.1).filterMap (readRow reader)).map
              fun event => (event.1.count, event.2) := by
  have isOf : (ToDeviceId.mk userId deviceId (firstCount since)).Of userId
      deviceId := ⟨rfl, rfl⟩
  have scan := @scan_eq_filter Key Json _
    (fun key => key < (ToDeviceId.mk userId deviceId
      (firstCount since)).key) (begins userId deviceId upTo)
    (fun lesser greater less below =>
      decide_eq_true (less.trans (of_decide_eq_true below)))
    (fun lesser greater less above ends =>
      begins_between upTo isOf less (of_decide_eq_false above) ends)
    _ store.todeviceidEvents.sorted
  rw [← scan]
  refine congrArg _ (takeWhile_filterMap_of_reads ?_)
  intro row member
  exact readRow_within represents upTo ((dropWhile_sublist _).subset member)

theorem mem_getToDeviceEvents_iff {event : UInt64 × Json} :
    event ∈ store.getToDeviceEvents userId deviceId since upTo ↔
      (⟨userId, deviceId, event.1⟩, event.2) ∈ pending ∧
        firstCount since ≤ event.1 ∧ upTo.all (event.1 ≤ ·) = true := by
  have start : ∀ count, (ToDeviceId.mk userId deviceId count).key <
      (ToDeviceId.mk userId deviceId (firstCount since)).key ↔
        count < firstCount since :=
    fun count => ToDeviceId.key_lt_key_iff rfl rfl
  rw [getToDeviceEvents_eq represents, mem_map]
  simp only [mem_filterMap, mem_filter, and_eq_true,
    not_eq_true', decide_eq_false_iff_not]
  constructor
  · rintro ⟨read, ⟨⟨key, content⟩, ⟨stored, above, ends⟩, isRead⟩, isEvent⟩
    obtain ⟨id, isPending, isKey⟩ := (represents key content).mp stored
    subst isKey
    rw [readRow_key] at isRead
    cases isRead
    cases isEvent
    obtain ⟨⟨rfl, rfl⟩, bounded⟩ := begins_key_iff.mp ends
    exact ⟨isPending, UInt64.not_lt.mp (start id.count |>.not.mp above),
      bounded⟩
  · rintro ⟨isPending, above, bounded⟩
    refine ⟨(⟨userId, deviceId, event.1⟩, event.2), ⟨
      ((ToDeviceId.mk userId deviceId event.1).key, event.2), ⟨?_, ?_, ?_⟩,
        readRow_key _ _⟩, rfl⟩
    · exact (represents _ _).mpr ⟨_, isPending, rfl⟩
    · rw [start, UInt64.not_lt]
      exact above
    · exact begins_key_iff.mpr ⟨⟨rfl, rfl⟩, bounded⟩

theorem getToDeviceEvents_ordered :
    (store.getToDeviceEvents userId deviceId since upTo).Pairwise
      fun event later => event.1 < later.1 := by
  rw [getToDeviceEvents_eq represents, pairwise_map, pairwise_filterMap]
  refine (store.todeviceidEvents.sorted.filter _).imp_of_mem ?_
  rintro ⟨key, content⟩ ⟨laterKey, laterContent⟩ member laterMember less
    event isEvent other isOther
  obtain ⟨stored, within⟩ := mem_filter.mp member
  obtain ⟨laterStored, laterWithin⟩ := mem_filter.mp laterMember
  obtain ⟨id, _, isKey⟩ := (represents key content).mp stored
  obtain ⟨laterId, _, isLaterKey⟩ :=
    (represents laterKey laterContent).mp laterStored
  subst isKey
  subst isLaterKey
  rw [readRow_key] at isEvent isOther
  cases isEvent
  cases isOther
  have isOf := (begins_key_iff.mp (and_eq_true_iff.mp within).2).1
  have laterOf := (begins_key_iff.mp (and_eq_true_iff.mp laterWithin).2).1
  exact (ToDeviceId.key_lt_key_iff (isOf.1.trans laterOf.1.symm)
    (isOf.2.trans laterOf.2.symm)).mp less

/-- The keys that the scan downward takes for those of the device. -/
theorem mem_removedIds_iff (upTo : Option UInt64) {id : ToDeviceId reader}
    {content : Json} (isPending : (id, content) ∈ pending) :
    id.key ∈ (store.removedIds userId deviceId upTo).map ToDeviceId.key ↔
      id.Of userId deviceId ∧ upTo.all (id.count ≤ ·) = true := by
  have starts : textPrefix [userId.val, deviceId] <+:
      (ToDeviceId.mk userId deviceId (upTo.getD lastCount)).key :=
    ToDeviceId.textPrefix_prefix_key_iff.mpr ⟨rfl, rfl⟩
  have reads : ∀ row ∈ store.todeviceidEvents.rows.reverse.dropWhile
      (fun row => (ToDeviceId.mk userId deviceId
        (upTo.getD lastCount)).key < row.1),
      ∃ id, ToDeviceId.read reader row.1 = some id ∧
        decide (id.Of userId deviceId) =
          (textPrefix [userId.val, deviceId]).isPrefixOf row.1 := by
    rintro ⟨key, held⟩ member
    obtain ⟨other, _, isKey⟩ := (represents key held).mp
      (mem_reverse.mp ((dropWhile_sublist _).subset member))
    subst isKey
    refine ⟨other, ToDeviceId.read_key, eq_iff_iff.mpr ?_⟩
    rw [decide_eq_true_iff, isPrefixOf_iff_prefix]
    exact ToDeviceId.textPrefix_prefix_key_iff.symm
  have scan := scanPrefixRev_eq_filter store.todeviceidEvents starts
  unfold scanPrefixRev at scan
  have bounded : id.Of userId deviceId →
      (upTo.all (id.count ≤ ·) = true ↔ ¬ (ToDeviceId.mk userId deviceId
        (upTo.getD lastCount)).key < id.key) := by
    intro isOf
    have order : (ToDeviceId.mk userId deviceId (upTo.getD lastCount)).key <
        id.key ↔ upTo.getD lastCount < id.count :=
      ToDeviceId.key_lt_key_iff isOf.1.symm isOf.2.symm
    rw [order]
    cases upTo with
    | none => exact iff_of_true rfl (not_lastCount_lt id.count)
    | some count =>
        rw [Option.all_some, decide_eq_true_eq, Option.getD_some, UInt64.not_lt]
  unfold removedIds
  dsimp only
  rw [takeWhile_filterMap_of_reads reads, scan, mem_map]
  simp only [mem_filterMap, mem_reverse, mem_filter,
    and_eq_true, not_eq_true', decide_eq_false_iff_not,
    isPrefixOf_iff_prefix]
  constructor
  · rintro ⟨other, ⟨⟨key, held⟩, ⟨stored, notAbove, begun⟩, isRead⟩, isKey⟩
    obtain ⟨named, _, sameKey⟩ := (represents key held).mp stored
    subst sameKey
    rw [ToDeviceId.read_key] at isRead
    cases isRead
    cases ToDeviceId.key_injective isKey
    have isOf := ToDeviceId.textPrefix_prefix_key_iff.mp begun
    exact ⟨isOf, (bounded isOf).mpr notAbove⟩
  · rintro ⟨isOf, inRange⟩
    refine ⟨id, ⟨(id.key, content), ⟨?_, ?_, ?_⟩, ToDeviceId.read_key⟩, rfl⟩
    · exact (represents _ _).mpr ⟨id, isPending, rfl⟩
    · exact (bounded isOf).mp inRange
    · exact ToDeviceId.textPrefix_prefix_key_iff.mpr isOf

theorem Represents.remove (upTo : Option UInt64) :
    (store.removeToDeviceEvents userId deviceId upTo).Represents
      (pending.filter fun event => ¬ (event.1.Of userId deviceId ∧
        upTo.all (event.1.count ≤ ·))) := by
  intro key content
  unfold removeToDeviceEvents
  dsimp only
  rw [mem_eraseAll, represents]
  constructor
  · rintro ⟨⟨id, isPending, isKey⟩, kept⟩
    subst isKey
    rw [mem_removedIds_iff represents upTo isPending] at kept
    exact ⟨id, mem_filter.mpr ⟨isPending, decide_eq_true kept⟩, rfl⟩
  · rintro ⟨id, member, isKey⟩
    subst isKey
    obtain ⟨isPending, kept⟩ := mem_filter.mp member
    refine ⟨⟨id, isPending, rfl⟩, ?_⟩
    rw [mem_removedIds_iff represents upTo isPending]
    exact of_decide_eq_true kept

theorem Represents.add
    (drawn : ∀ event ∈ pending, event.1.count < saturatingInc store.counter)
    (sender : UserId) (eventType : String) (content : Json) :
    (store.addToDeviceEvent userId deviceId sender eventType
      content).Represents (pending ++
        [(⟨userId, deviceId, saturatingInc store.counter⟩,
          toDeviceJson sender eventType content)]) := by
  intro key held
  unfold addToDeviceEvent
  dsimp only
  rw [mem_put, represents]
  constructor
  · rintro (new | ⟨⟨id, isPending, isKey⟩, _⟩)
    · obtain ⟨isKey, isHeld⟩ := Prod.mk.inj new
      refine ⟨_, mem_append_right _ (mem_singleton.mpr ?_), isKey.symm⟩
      rw [isHeld]
    · exact ⟨id, mem_append_left _ isPending, isKey⟩
  · rintro ⟨id, member, isKey⟩
    subst isKey
    rcases mem_append.mp member with isPending | new
    · refine .inr ⟨⟨id, isPending, rfl⟩, ?_⟩
      intro same
      have less := drawn _ isPending
      rw [ToDeviceId.key_injective same] at less
      exact UInt64.lt_irrefl _ less
    · obtain ⟨isId, isHeld⟩ := Prod.mk.inj (mem_singleton.mp new)
      rw [isId, isHeld]
      exact .inl rfl

end

theorem Sound.get (sound : store.Sound pending) (since upTo : Option UInt64) :
    store.getToDeviceEvents userId deviceId since upTo =
      pending.within userId deviceId since upTo := by
  refine @eq_of_ordered_of_mem_iff (UInt64 × Json)
    (fun event later => event.1 < later.1) (fun _ => UInt64.lt_irrefl _)
    (fun _ _ => UInt64.lt_asymm) _ _
    (getToDeviceEvents_ordered sound.represents since upTo) ?_ ?_
  · exact pairwise_map.mpr (sound.ordered.filter _)
  · rintro ⟨count, content⟩
    rw [mem_getToDeviceEvents_iff sound.represents]
    unfold Pending.within
    simp only [mem_map, mem_filter, decide_eq_true_eq]
    have first : ∀ event ∈ pending, (firstCount since ≤ event.1.count ↔
        since.all (· < event.1.count) = true) := by
      intro event isPending
      cases since with
      | none => exact iff_of_true (UInt64.zero_le) rfl
      | some since =>
          rw [Option.all_some, decide_eq_true_eq]
          by_cases last : since = lastCount
          · subst last
            refine iff_of_false ?_ (not_lastCount_lt _)
            intro above
            exact (sound.drawn event isPending).2 (lastCount_le_iff.mp
              (saturatingInc_lastCount ▸ above))
          · exact saturatingInc_le_iff last
    constructor
    · rintro ⟨isPending, above, bounded⟩
      exact ⟨_, ⟨isPending, ⟨rfl, rfl⟩,
        (first _ isPending).mp above, bounded⟩, rfl⟩
    · rintro ⟨⟨id, held⟩, ⟨isPending, isOf, above, bounded⟩, isEvent⟩
      cases isEvent
      obtain ⟨rfl, rfl⟩ := isOf
      exact ⟨isPending, (first _ isPending).mpr above, bounded⟩

end

def DrawsBelow (store : ToDeviceStore) : ToDeviceCall reader → Prop
  | .addToDeviceEvent _ _ _ _ _ => saturatingInc store.counter ≠ lastCount
  | _ => True

instance (store : ToDeviceStore) :
    (call : ToDeviceCall reader) → Decidable (store.DrawsBelow call)
  | .addToDeviceEvent _ _ _ _ _ => inferInstanceAs (Decidable (_ ≠ _))
  | .getToDeviceEvents _ _ _ _ => isTrue trivial
  | .removeToDeviceEvents _ _ _ => isTrue trivial
  | .nextCount => isTrue trivial

section

variable {store : ToDeviceStore} {pending : Pending reader}

theorem Sound.fresh (sound : store.Sound pending)
    (below : saturatingInc store.counter ≠ lastCount) :
    ∀ event ∈ pending, event.1.count < saturatingInc store.counter := by
  have more : store.counter ≠ lastCount := by
    intro last
    exact below (last ▸ saturatingInc_lastCount)
  intro event isPending
  exact UInt64.lt_of_le_of_lt (sound.drawn event isPending).1
    (lt_saturatingInc more)

section

variable (sound : store.Sound pending) (call : ToDeviceCall reader)
  (below : store.DrawsBelow call)
include sound call below

theorem Sound.tells : pending.Tells call (store.step call).2 := by
  cases call with
  | addToDeviceEvent sender userId deviceId eventType content =>
      exact ⟨_, rfl, sound.fresh below⟩
  | getToDeviceEvents userId deviceId since upTo =>
      exact congrArg ToDeviceAnswer.events (sound.get since upTo)
  | removeToDeviceEvents userId deviceId upTo | nextCount => exact rfl

theorem Sound.step :
    (store.step call).1.Sound (pending.after call (store.step call).2) := by
  cases call with
  | addToDeviceEvent sender userId deviceId eventType content =>
      have fresh := sound.fresh below
      refine ⟨sound.represents.add fresh sender eventType content, ?_, ?_⟩
      · refine pairwise_append.mpr ⟨sound.ordered, pairwise_singleton _ _, ?_⟩
        intro event isPending later isNew
        rw [mem_singleton.mp isNew]
        exact fresh event isPending
      · intro event member
        rcases mem_append.mp member with isPending | isNew
        · obtain ⟨bound, notLast⟩ := sound.drawn event isPending
          exact ⟨UInt64.le_trans bound (le_saturatingInc _), notLast⟩
        · rw [mem_singleton.mp isNew]
          exact ⟨UInt64.le_refl _, below⟩
  | getToDeviceEvents userId deviceId since upTo => exact sound
  | removeToDeviceEvents userId deviceId upTo =>
      refine ⟨sound.represents.remove upTo, sound.ordered.filter _, ?_⟩
      intro event member
      exact sound.drawn event (mem_filter.mp member).1
  | nextCount =>
      refine ⟨sound.represents, sound.ordered, ?_⟩
      intro event isPending
      obtain ⟨bound, notLast⟩ := sound.drawn event isPending
      exact ⟨UInt64.le_trans bound (le_saturatingInc _), notLast⟩

end

theorem empty_sound (counter : UInt64) :
    (empty counter).Sound ([] : Pending reader) where
  represents := by
    intro key content
    refine iff_of_false not_mem_empty ?_
    intro named
    obtain ⟨id, member, _⟩ := named
    cases member
  ordered := .nil
  drawn := fun _ member => absurd member not_mem_nil

theorem sound_of_reaches {counter : UInt64}
    {history : List (Entry ToDeviceStore (ToDeviceCall reader) ToDeviceAnswer)}
    (reached : Reaches step (empty counter) history store)
    (below : Always (fun _ entry => entry.before.DrawsBelow entry.input)
      history) : store.Sound (Pending.ofHistory history) := by
  refine reached.invariant
    (fun history store => store.Sound (Pending.ofHistory history))
    (empty_sound counter) ?_ below
  intro history store call sound draws
  unfold Pending.ofHistory
  rw [foldl_append]
  exact sound.step call draws

/-- In every run that adds no event under the greatest count, each scan gives
the events of its range, and the rows are always those of the events that are
added and not removed. -/
theorem toDevice_exact (counter : UInt64) (calls : List (ToDeviceCall reader))
    (below : ∀ entry ∈ (run step (empty counter) calls).1,
      entry.before.DrawsBelow entry.input) :
    Always (fun earlier entry =>
        entry.before.Represents (Pending.ofHistory earlier) ∧
          (Pending.ofHistory earlier).Tells entry.input entry.output)
      (run step (empty counter) calls).1 ∧
    (run step (empty counter) calls).2.Represents
      (Pending.ofHistory (run step (empty counter) calls).1) := by
  have always := Always.of_forall_mem below
  have reached := reaches_run step (empty counter) calls
  refine ⟨?_, (sound_of_reaches reached always).represents⟩
  intro earlier entry later split
  obtain ⟨reachedBefore, isEntry⟩ := reached.entry split
  have earlierBelow := always
  rw [split] at earlierBelow
  have sound := sound_of_reaches reachedBefore earlierBelow.initial
  have draws := always earlier entry later split
  have told := sound.tells entry.input draws
  rw [isEntry]
  exact ⟨sound.represents, told⟩

end

def bob : plainReader.UserId := ⟨"@bob:here", by decide⟩

def firstEvent : ToDeviceCall plainReader :=
  .addToDeviceEvent "@alice:here" bob "PHONE" "m.first" .null

def secondEvent : ToDeviceCall plainReader :=
  .addToDeviceEvent "@alice:here" bob "PHONE" "m.second" .null

def allEvents : ToDeviceCall plainReader :=
  .getToDeviceEvents bob "PHONE" none none

def twoEvents : List (ToDeviceCall plainReader) :=
  [firstEvent, secondEvent, allEvents]

theorem twoEvents_exact :
    Always (fun earlier entry =>
        entry.before.Represents (Pending.ofHistory earlier) ∧
          (Pending.ofHistory earlier).Tells entry.input entry.output)
      (run step (empty 0) twoEvents).1 ∧
    (run step (empty 0) twoEvents).2.Represents
      (Pending.ofHistory (run step (empty 0) twoEvents).1) :=
  toDevice_exact 0 twoEvents (by decide)

/-- At the greatest count the second event takes the row of the first. -/
theorem lastCount_loses :
    ¬ Always (fun earlier entry =>
        entry.before.Represents (Pending.ofHistory earlier) ∧
          (Pending.ofHistory earlier).Tells entry.input entry.output)
      (run step (empty lastCount) twoEvents).1 := by
  intro always
  let first := (empty lastCount).step firstEvent
  let second := first.1.step secondEvent
  have told := (always [entryOf step (empty lastCount) firstEvent,
    entryOf step first.1 secondEvent] (entryOf step second.1 allEvents) []
      rfl).2
  have lengths := congrArg length (ToDeviceAnswer.events.inj told)
  exact absurd lengths (by decide)

end ToDeviceStore

end ArcanaServer.Sync
