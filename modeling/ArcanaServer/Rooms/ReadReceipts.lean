import ArcanaServer.Database.Prefixes
import ArcanaServer.Library.Trace

namespace ArcanaServer.Rooms

open Library ArcanaServer.Matrix Database
open Database.Deserializer (ends_trailing)
open Sending (Byte separator)
open List Component SortedTable

/-! The public read receipts, which a scan without separators replaces. -/

structure Receipt where
  roomId : RoomId
  count : UInt64
  userId : UserId
  deriving DecidableEq

namespace Receipt

def key (receipt : Receipt) : Key :=
  joined [.str receipt.roomId, .u64 receipt.count, .str receipt.userId]

def lastPossibleKey (roomId : RoomId) : Key :=
  joined [.str roomId, .u64 (lastCount)]

variable {receipt : Receipt} {roomId : RoomId} {userId : UserId}

theorem key_eq_closed : receipt.key =
    closed [.str receipt.roomId, .u64 receipt.count] ++
      strBytes receipt.userId := by
  have whole := joined_append [.str receipt.roomId, .u64 receipt.count]
    (cons_ne_nil (.str receipt.userId) [])
  have last : joined [.str receipt.userId] = strBytes receipt.userId :=
    append_nil _
  rw [last] at whole
  exact whole

theorem key_injective : Function.Injective key := by
  intro first second same
  rw [key_eq_closed, key_eq_closed] at same
  have starts : closed [.str first.roomId, .u64 first.count] <+:
      closed [.str second.roomId, .u64 second.count] ++
        strBytes second.userId :=
    ⟨strBytes first.userId, same⟩
  have keyed : ∀ component ∈ [str first.roomId, .u64 first.count],
      component.Keyed := by
    simp [Component.Keyed]
  have kinds : [str first.roomId, .u64 first.count].map kind =
        [str second.roomId, .u64 second.count].map kind := rfl
  have fronts := (closed_prefix_iff keyed kinds).mp starts
  rw [fronts, append_right_inj] at same
  have users := strBytes_inj same
  obtain ⟨rooms, others⟩ := List.cons.inj fronts
  obtain ⟨counts, _⟩ := List.cons.inj others
  cases first
  cases second
  cases str.inj rooms
  cases u64.inj counts
  cases users
  rfl

theorem prefix_key_iff : strBytes roomId <+: receipt.key ↔
    strBytes roomId <+: strBytes receipt.roomId := by
  unfold key joined
  exact prefix_of_clear (separator_notMem_strBytes roomId) (ends_trailing _)

theorem suffix_key_iff : strBytes userId <:+ receipt.key ↔
    strBytes userId <:+ strBytes receipt.userId := by
  have parts : receipt.key =
      (strBytes receipt.roomId ++ separator :: u64Bytes receipt.count) ++
        separator :: strBytes receipt.userId := by
    simp [key, joined, trailing, Component.content]
  rw [parts]
  exact suffix_of_clear (separator_notMem_strBytes userId)

/-- Of the rows under a room only one with the last count stands behind the
key that the scan starts at. -/
theorem lastPossibleKey_lt_iff
    (starts : strBytes roomId <+: strBytes receipt.roomId) :
    lastPossibleKey roomId < receipt.key ↔
      receipt.roomId = roomId ∧ receipt.count = lastCount := by
  obtain ⟨more, isMore⟩ := starts
  have parts : receipt.key = strBytes roomId ++ (more ++ separator ::
      (u64Bytes receipt.count ++ separator :: strBytes receipt.userId)) := by
    rw [← append_assoc, isMore]
    simp [key, joined, trailing, Component.content]
  have last : lastPossibleKey roomId =
      strBytes roomId ++ separator :: u64Bytes (lastCount) := by
    simp [lastPossibleKey, joined, trailing, Component.content]
  rw [parts, last, append_lt_append_left_iff]
  cases more with
  | nil =>
      have same : receipt.roomId = roomId :=
        (strBytes_inj ((append_nil _).symm.trans isMore)).symm
      have lengths : (u64Bytes (lastCount)).length =
          (u64Bytes receipt.count).length := by
        rw [u64Bytes_length, u64Bytes_length]
      have ended : u64Bytes (lastCount) <
          u64Bytes receipt.count ++ separator :: strBytes receipt.userId ↔
          receipt.count = lastCount := by
        have split : u64Bytes (lastCount) ++ [] <
            u64Bytes receipt.count ++ separator :: strBytes receipt.userId ↔
              _ := append_lt_append_iff lengths
        rw [append_nil] at split
        rw [split, u64Bytes_lt_iff]
        constructor
        · rintro (less | ⟨sameBytes, _⟩)
          · exact absurd less (not_lastCount_lt receipt.count)
          · exact (u64Bytes_inj sameBytes).symm
        · intro isLast
          rw [isLast]
          exact .inr ⟨rfl, nil_lt_cons _ _⟩
      rw [nil_append, cons_lt_cons_iff]
      simp [ended, same]
  | cons byte later =>
      have inside : byte ∈ strBytes receipt.roomId := by
        rw [← isMore]
        exact mem_append_right _ mem_cons_self
      have differs : byte ≠ separator := by
        intro same
        exact separator_notMem_strBytes receipt.roomId (same ▸ inside)
      have longer : receipt.roomId ≠ roomId := by
        intro same
        rw [same] at isMore
        exact absurd (append_right_eq_self.mp isMore) (by simp)
      have notLess : ¬ separator < byte := not_lt.mpr (Fin.le_last byte)
      rw [cons_append, cons_lt_cons_iff]
      simp [longer, notLess, Ne.symm differs]

end Receipt

/-- The counter of the globals service and the rows of
`readreceiptid_readreceipt`, whose counts it has drawn. -/
structure ReceiptStore (Event : Type) where
  counter : UInt64
  readreceipts : SortedTable Key Event
  written : ∀ row ∈ readreceipts,
    ∃ receipt : Receipt, row.1 = receipt.key ∧ receipt.count ≤ counter

namespace ReceiptStore

variable {Event : Type}

def empty (counter : UInt64) : ReceiptStore Event where
  counter
  readreceipts := .empty
  written := fun _ member => absurd member SortedTable.not_mem_empty

variable (store : ReceiptStore Event)

def nextCount : UInt64 :=
  saturatingInc store.counter

def drawn : ReceiptStore Event where
  counter := store.nextCount
  readreceipts := store.readreceipts
  written := by
    intro row member
    obtain ⟨receipt, isKey, bound⟩ := store.written row member
    exact ⟨receipt, isKey,
      UInt64.le_trans bound (le_saturatingInc store.counter)⟩

variable (userId : UserId) (roomId : RoomId)

def oldKeys : List Key :=
  ((store.readreceipts.scanPrefixRev (strBytes roomId)
    (Receipt.lastPossibleKey roomId)).filter
      fun row => (strBytes userId).isSuffixOf row.1).map Prod.fst

def readreceiptUpdate (event : Event) : ReceiptStore Event where
  counter := store.nextCount
  readreceipts :=
    (store.readreceipts.eraseAll (store.oldKeys userId roomId)).put
      (Receipt.mk roomId store.nextCount userId).key event
  written := by
    intro row member
    rw [SortedTable.mem_put, SortedTable.mem_eraseAll] at member
    rcases member with new | old
    · exact ⟨_, congrArg Prod.fst new, UInt64.le_refl _⟩
    · obtain ⟨receipt, isKey, bound⟩ := store.written row old.1.1
      exact ⟨receipt, isKey,
        UInt64.le_trans bound (le_saturatingInc store.counter)⟩

def Holds (receipt : Receipt) (event : Event) : Prop :=
  (receipt.key, event) ∈ store.readreceipts

/-- One row is left for the user and the room, with the event under a count
that has not been drawn before, and all other rows are as they were. -/
structure Replaced (before after : ReceiptStore Event) (userId : UserId)
    (roomId : RoomId) (event : Event) : Prop where
  one : ∃ count, before.counter < count ∧ ∀ receipt held,
    receipt.roomId = roomId → receipt.userId = userId →
      (after.Holds receipt held ↔ receipt.count = count ∧ held = event)
  others : ∀ receipt held,
    ¬ (receipt.roomId = roomId ∧ receipt.userId = userId) →
      (after.Holds receipt held ↔ before.Holds receipt held)

/-- There is a count to draw, and no receipt of a room that goes on after the
given one is of a user whose id ends with the given one, these two apart. -/
structure Unmistaken : Prop where
  drawable : store.counter ≠ lastCount
  alone : ∀ receipt event, store.Holds receipt event →
    strBytes roomId <+: strBytes receipt.roomId →
    strBytes userId <:+ strBytes receipt.userId →
      receipt.roomId = roomId ∧ receipt.userId = userId

section

variable {store : ReceiptStore Event} {userId : UserId} {roomId : RoomId}
  {receipt : Receipt} {event held : Event}

theorem Holds.count_le (holds : store.Holds receipt held) :
    receipt.count ≤ store.counter := by
  obtain ⟨other, isKey, bound⟩ := store.written _ holds
  rw [Receipt.key_injective isKey]
  exact bound

theorem mem_oldKeys_iff (holds : store.Holds receipt held) :
    receipt.key ∈ store.oldKeys userId roomId ↔
      strBytes roomId <+: strBytes receipt.roomId ∧
        strBytes userId <:+ strBytes receipt.userId ∧
          ¬ (receipt.roomId = roomId ∧ receipt.count = lastCount) := by
  have starts : strBytes roomId <+: Receipt.lastPossibleKey roomId := by
    unfold Receipt.lastPossibleKey joined
    exact prefix_append _ _
  unfold oldKeys
  rw [scanPrefixRev_eq_filter _ starts, mem_map]
  constructor
  · intro scanned
    obtain ⟨row, member, isKey⟩ := scanned
    simp only [mem_filter, mem_reverse, Bool.and_eq_true,
      Bool.not_eq_true', decide_eq_false_iff_not,
      isPrefixOf_iff_prefix, isSuffixOf_iff_suffix] at member
    obtain ⟨⟨_, notAbove, begins⟩, ends⟩ := member
    rw [isKey] at notAbove begins ends
    have rooms := Receipt.prefix_key_iff.mp begins
    rw [Receipt.lastPossibleKey_lt_iff rooms] at notAbove
    exact ⟨rooms, Receipt.suffix_key_iff.mp ends, notAbove⟩
  · intro within
    obtain ⟨begins, ends, notLast⟩ := within
    refine ⟨(receipt.key, held), ?_, rfl⟩
    simp only [mem_filter, mem_reverse, Bool.and_eq_true,
      Bool.not_eq_true', decide_eq_false_iff_not,
      isPrefixOf_iff_prefix, isSuffixOf_iff_suffix]
    rw [Receipt.lastPossibleKey_lt_iff begins]
    exact ⟨⟨holds, notLast, Receipt.prefix_key_iff.mpr begins⟩,
      Receipt.suffix_key_iff.mpr ends⟩

/-- What holds after an update: the new receipt, and every old one that the
scan does not take for it. -/
theorem holds_readreceiptUpdate_iff :
    (store.readreceiptUpdate userId roomId event).Holds receipt held ↔
      receipt = ⟨roomId, store.nextCount, userId⟩ ∧ held = event ∨
      receipt ≠ ⟨roomId, store.nextCount, userId⟩ ∧ store.Holds receipt held ∧
        ¬ (strBytes roomId <+: strBytes receipt.roomId ∧
          strBytes userId <:+ strBytes receipt.userId ∧
          ¬ (receipt.roomId = roomId ∧ receipt.count = lastCount)) := by
  have key : (receipt.key, held) =
      ((Receipt.mk roomId store.nextCount userId).key, event) ↔
        receipt = ⟨roomId, store.nextCount, userId⟩ ∧ held = event := by
    rw [Prod.mk.injEq, Receipt.key_injective.eq_iff]
  unfold Holds readreceiptUpdate
  rw [mem_put, mem_eraseAll, key, Receipt.key_injective.ne_iff]
  constructor
  · rintro (new | ⟨⟨old, kept⟩, differs⟩)
    · exact .inl new
    · rw [mem_oldKeys_iff old] at kept
      exact .inr ⟨differs, old, kept⟩
  · rintro (new | ⟨differs, old, kept⟩)
    · exact .inl new
    · rw [← mem_oldKeys_iff old] at kept
      exact .inr ⟨⟨old, kept⟩, differs⟩

theorem replaced_iff : Replaced store
      (store.readreceiptUpdate userId roomId event) userId roomId event ↔
    store.Unmistaken userId roomId := by
  constructor
  · intro replaced
    obtain ⟨count, fresh, _⟩ := replaced.one
    have drawable : store.counter ≠ lastCount := by
      intro last
      rw [last] at fresh
      exact not_lastCount_lt count fresh
    refine ⟨drawable, ?_⟩
    intro receipt held holds begins ends
    by_contra other
    have kept := (replaced.others receipt held other).mpr holds
    rw [holds_readreceiptUpdate_iff] at kept
    rcases kept with ⟨new, _⟩ | ⟨_, _, apart⟩
    · exact other (new ▸ ⟨rfl, rfl⟩)
    · refine apart ⟨begins, ends, ?_⟩
      intro isLast
      have bound := holds.count_le
      rw [isLast.2] at bound
      exact drawable (lastCount_le_iff.mp bound)
  · intro unmistaken
    have fresh := lt_saturatingInc unmistaken.drawable
    constructor
    · refine ⟨store.nextCount, fresh, ?_⟩
      intro receipt held room user
      rw [holds_readreceiptUpdate_iff]
      constructor
      · rintro (⟨new, same⟩ | ⟨_, old, kept⟩)
        · exact ⟨congrArg Receipt.count new, same⟩
        · refine absurd ?_ kept
          rw [room, user]
          refine ⟨prefix_rfl, suffix_rfl, ?_⟩
          intro isLast
          have bound := old.count_le
          rw [isLast.2] at bound
          exact unmistaken.drawable (lastCount_le_iff.mp bound)
      · intro new
        cases receipt
        cases room
        cases user
        exact .inl ⟨congrArg (Receipt.mk _ · _) new.1, new.2⟩
    · intro receipt held other
      rw [holds_readreceiptUpdate_iff]
      constructor
      · rintro (⟨new, _⟩ | ⟨_, old, _⟩)
        · exact absurd (new ▸ ⟨rfl, rfl⟩) other
        · exact old
      · intro old
        refine .inr ⟨?_, old, ?_⟩
        · intro new
          exact other (new ▸ ⟨rfl, rfl⟩)
        · intro taken
          exact other (unmistaken.alone receipt held old taken.1 taken.2.1)

end

inductive Input (Event : Type) where
  | readreceiptUpdate (userId : UserId) (roomId : RoomId) (event : Event)
  | nextCount

variable (store : ReceiptStore Event)

def step : Input Event → ReceiptStore Event × Unit
  | .readreceiptUpdate userId roomId event =>
      (store.readreceiptUpdate userId roomId event, ())
  | .nextCount => (store.drawn, ())

def Replaces : Input Event → Prop
  | .readreceiptUpdate userId roomId event => Replaced store
      (store.readreceiptUpdate userId roomId event) userId roomId event
  | .nextCount => True

def Sure : Input Event → Prop
  | .readreceiptUpdate userId roomId _ => store.Unmistaken userId roomId
  | .nextCount => True

def OneEach : Prop :=
  ∀ first second one two, store.Holds first one → store.Holds second two →
    first.roomId = second.roomId → first.userId = second.userId → first = second

theorem OneEach.step {store : ReceiptStore Event} (oneEach : store.OneEach)
    (input : Input Event) (replaces : store.Replaces input) :
    (store.step input).1.OneEach := by
  cases input with
  | nextCount => exact oneEach
  | readreceiptUpdate userId roomId event =>
      intro first second one two holds alsoHolds rooms users
      obtain ⟨count, _, only⟩ := replaces.one
      by_cases here : first.roomId = roomId ∧ first.userId = userId
      · have counts := ((only first one here.1 here.2).mp holds).1
        have others := ((only second two (rooms.symm.trans here.1)
          (users.symm.trans here.2)).mp alsoHolds).1
        cases first
        cases second
        cases rooms
        cases users
        exact congrArg (Receipt.mk _ · _) (counts.trans others.symm)
      · have before := (replaces.others first one here).mp holds
        have alsoBefore := (replaces.others second two
          (rooms ▸ users ▸ here)).mp alsoHolds
        exact oneEach first second one two before alsoBefore rooms users

/-- In every run an update replaces the receipt of the user and the room just
where the scan mistakes no other row for it, and where none does, no user has
two receipts in a room. -/
theorem updates_replace_iff (counter : UInt64) (inputs : List (Input Event)) :
    (∀ entry ∈ (run step (empty counter) inputs).1,
      (entry.before.Replaces entry.input ↔ entry.before.Sure entry.input)) ∧
    ((∀ entry ∈ (run step (empty counter) inputs).1,
      entry.before.Sure entry.input) →
        (run step (empty counter) inputs).2.OneEach) := by
  have each : ∀ (store : ReceiptStore Event) (input : Input Event),
      store.Replaces input ↔ store.Sure input := by
    intro store input
    cases input with
    | nextCount => exact Iff.rfl
    | readreceiptUpdate userId roomId event => exact replaced_iff
  refine ⟨fun entry _ => each entry.before entry.input, ?_⟩
  intro sure
  have initial : (empty counter : ReceiptStore Event).OneEach :=
    fun _ _ _ _ holds => absurd holds not_mem_empty
  refine (reaches_run step (empty counter) inputs).invariant
    (fun _ store => store.OneEach) initial ?_ (Always.of_forall_mem sure)
  intro _ store input oneEach isSure
  exact oneEach.step input ((each store input).mpr isSure)

def longerRoom : ReceiptStore String :=
  (empty 0).readreceiptUpdate "@bob:here" "!room:here.org" "$first"

theorem longerRoom_lost : ¬ Replaced longerRoom
    (longerRoom.readreceiptUpdate "@bob:here" "!room:here" "$second")
    "@bob:here" "!room:here" "$second" := by
  intro replaced
  have held : longerRoom.Holds ⟨"!room:here.org", 1, "@bob:here"⟩ "$first" :=
    holds_readreceiptUpdate_iff.mpr (.inl ⟨by decide, rfl⟩)
  have kept := (replaced.others ⟨"!room:here.org", 1, "@bob:here"⟩ "$first"
    (by decide)).mpr held
  rw [holds_readreceiptUpdate_iff] at kept
  rcases kept with ⟨new, _⟩ | ⟨_, _, apart⟩
  · exact absurd (congrArg Receipt.roomId new) (by decide)
  · exact apart ⟨by decide, suffix_rfl, by decide⟩

end ReceiptStore

end ArcanaServer.Rooms
