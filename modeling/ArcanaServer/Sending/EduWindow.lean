import ArcanaServer.Sending.EduStores

namespace ArcanaServer.Sending

open Library ArcanaServer.Matrix List DeviceChanges

/-! What a selection reads.  The rows of the window stand in the order in which
they are scanned; a row is read unless enough users are picked in front of it. -/

def changedUser (row : Nat × UserId) : Option UserId := some row.2

theorem changedUser_eq (row : Nat × UserId) : changedUser row = some row.2 :=
  rfl

namespace Selecting

variable (selecting : Selecting)

def inWindow (count : Nat) : Bool :=
  selecting.since < count && count ≤ selecting.upper

def deviceRows : List (Nat × UserId) :=
  (selecting.cache.serverRooms selecting.server).flatMap (fun roomId =>
    (selecting.stores.keychangeidUserid roomId).rows.filter (fun row =>
      selecting.inWindow row.1 && selecting.config.userIsLocal row.2))

def DeviceRowRead (row : Nat × UserId) : Prop := row ∈ selecting.deviceRows ∧
    (pickedBefore changedUser selecting.deviceRows row).card < selectEduLimit

def receiptRows (roomId : RoomId) : List ((Nat ×ₗ UserId) × ReadReceipt) :=
  (selecting.stores.readreceiptidReadreceipt roomId).receipts.rows.filter
    (fun row => selecting.inWindow (countOf row))

def pickReceipt (row : (Nat ×ₗ UserId) × ReadReceipt) :
    Option (UserId × ReceiptData) :=
  if selecting.config.userIsLocal (userOf row) then
    some (userOf row, receiptData row.2)
  else none

def ReceiptRowRead (roomId : RoomId)
    (row : (Nat ×ₗ UserId) × ReadReceipt) : Prop :=
  row ∈ selecting.receiptRows roomId ∧
    (pickedBefore (pickKey selecting.pickReceipt)
      (selecting.receiptRows roomId) row).card < selectReceiptLimit

def presenceRows : List ((Nat ×ₗ UserId) × Presence) :=
  selecting.stores.presence.presenceidPresence.rows.filter
    (fun row => selecting.inWindow (countOf row))

def PresenceRowRead (row : (Nat ×ₗ UserId) × Presence) : Prop :=
  row ∈ selecting.presenceRows ∧
    (pickedBefore (pickKey selecting.pickPresence) selecting.presenceRows
      row).card < selectPresenceLimit

/-- A selector comes to a row with the count. -/
inductive Reads : Nat → Prop
  | device (row : Nat × UserId) (read : selecting.DeviceRowRead row) :
      Reads row.1
  | receipt (allowed : selecting.config.allowOutgoingReadReceipts = true)
      (roomId : RoomId)
      (shared : roomId ∈ selecting.cache.serverRooms selecting.server)
      (row : (Nat ×ₗ UserId) × ReadReceipt)
      (read : selecting.ReceiptRowRead roomId row) : Reads (countOf row)
  | presence (allowed : selecting.config.allowOutgoingPresence = true)
      (row : (Nat ×ₗ UserId) × Presence)
      (read : selecting.PresenceRowRead row) : Reads (countOf row)

end Selecting

def DeviceChanges.note (changes : DeviceChanges) (row : Nat × UserId) :
    DeviceChanges :=
  let changes :=
    { changes with maxEduCount := Nat.max changes.maxEduCount row.1 }
  if row.2 ∈ changes.deviceListChanges then changes
  else { changes with
    deviceListChanges := changes.deviceListChanges ++ [row.2]
    events := changes.events ++ [.deviceListUpdate (deviceListUpdate row.2)] }

/-- The events name every user once, and there is room for another one. -/
structure DeviceChanges.Kept (changes : DeviceChanges) : Prop where
  nodup : changes.deviceListChanges.Nodup
  events : changes.events = changes.deviceListChanges.map
    (fun userId => .deviceListUpdate (deviceListUpdate userId))
  room : changes.deviceListChanges.length < selectEduLimit

def readDevices (changes : DeviceChanges) (rows : List (Nat × UserId)) :
    DeviceChanges :=
  (readUpTo selectEduLimit changedUser changes.deviceListChanges.toFinset
    rows).foldl note changes

section

variable {changes : DeviceChanges} {row : Nat × UserId}
  {rows : List (Nat × UserId)}

theorem DeviceChanges.Kept.card (kept : changes.Kept) :
    changes.deviceListChanges.toFinset.card = changes.events.length := by
  rw [toFinset_card_of_nodup kept.nodup, kept.events, length_map]

theorem readDevices_known (known : row.2 ∈ changes.deviceListChanges) :
    readDevices changes (row :: rows) =
      readDevices (changes.note row) rows := by
  unfold readDevices
  rw [readUpTo_seen (changedUser_eq row) (mem_toFinset.mpr known), foldl_cons]
  simp only [note, if_pos known]

theorem readDevices_new (kept : changes.Kept)
    (unknown : row.2 ∉ changes.deviceListChanges)
    (room : ¬ selectEduLimit - 1 ≤ changes.events.length) :
    (changes.note row).Kept ∧ readDevices changes (row :: rows) =
      readDevices (changes.note row) rows := by
  have more : ¬ selectEduLimit ≤
      changes.deviceListChanges.toFinset.card + 1 := by
    rw [kept.card]
    simp only [selectEduLimit, eduLimit] at room ⊢
    omega
  have noted : (changes.note row).deviceListChanges =
      changes.deviceListChanges ++ [row.2] := by
    simp only [note, if_neg unknown]
  constructor
  · refine ⟨?_, ?_, ?_⟩
    · rw [noted]
      exact nodup_append.mpr ⟨kept.nodup, nodup_singleton _,
        fun other member last listed => by
          rw [mem_singleton.mp listed]
          exact fun same => unknown (same ▸ member)⟩
    · rw [noted]
      simp only [note, if_neg unknown, kept.events,
        map_append, map_cons, map_nil]
    · rw [noted, length_append, length_singleton,
        ← toFinset_card_of_nodup kept.nodup]
      exact not_le.mp more
  · unfold readDevices
    rw [readUpTo_new (changedUser_eq row)
      (fun inside => unknown (mem_toFinset.mp inside)) more,
      foldl_cons, noted]
    congr 2
    ext other
    simp

theorem readDevices_last (kept : changes.Kept)
    (unknown : row.2 ∉ changes.deviceListChanges)
    (full : selectEduLimit - 1 ≤ changes.events.length) :
    readDevices changes (row :: rows) = changes.note row := by
  have enough : selectEduLimit ≤
      changes.deviceListChanges.toFinset.card + 1 := by
    rw [kept.card]
    omega
  unfold readDevices
  rw [readUpTo_last (changedUser_eq row)
    (fun inside => unknown (mem_toFinset.mp inside)) enough]
  rfl

/-- The rows of a room are read before those of the later rooms. -/
def RoomRead (changes : DeviceChanges) (rows : List (Nat × UserId)) :
    Except DeviceChanges DeviceChanges → Prop
  | .ok after => after.Kept ∧
      ∀ later, readDevices changes (rows ++ later) = readDevices after later
  | .error after => ∀ later, readDevices changes (rows ++ later) = after

theorem changesInRoom_read (upper : Nat) (kept : changes.Kept) :
    RoomRead changes (rows.takeWhile (fun row => row.1 ≤ upper))
      (changesInRoom upper rows changes) := by
  induction rows generalizing changes with
  | nil => exact ⟨kept, fun later => rfl⟩
  | cons row rest ih =>
      by_cases above : upper < row.1
      · rw [takeWhile_cons_of_neg (by simpa using above)]
        simp only [changesInRoom, if_pos above]
        exact ⟨kept, fun later => rfl⟩
      · rw [takeWhile_cons_of_pos (by simpa using above)]
        have follows : ∀ {after : DeviceChanges},
            (∀ later, readDevices changes (row :: later) =
              readDevices after later) →
            ∀ {outcome}, RoomRead after
              (rest.takeWhile (fun row => row.1 ≤ upper)) outcome →
            RoomRead changes
              (row :: rest.takeWhile (fun row => row.1 ≤ upper)) outcome := by
          intro after reads outcome read
          cases outcome with
          | ok last =>
              exact ⟨read.1, fun later => (reads _).trans (read.2 later)⟩
          | error last => exact fun later => (reads _).trans (read later)
        simp only [changesInRoom, if_neg above]
        by_cases known : row.2 ∈ changes.deviceListChanges
        · have noted : changes.note row = { changes with
              maxEduCount := Nat.max changes.maxEduCount row.1 } := by
            simp only [note, if_pos known]
          rw [if_pos known]
          refine follows (fun later => readDevices_known known) ?_
          rw [noted]
          exact ih ⟨kept.nodup, kept.events, kept.room⟩
        · have noted : changes.note row = { changes with
              maxEduCount := Nat.max changes.maxEduCount row.1
              deviceListChanges := changes.deviceListChanges ++ [row.2]
              events := changes.events ++
                [.deviceListUpdate (deviceListUpdate row.2)] } := by
            simp only [note, if_neg known]
          rw [if_neg known]
          by_cases full : selectEduLimit - 1 ≤ changes.events.length
          · rw [if_pos full, ← noted]
            exact fun later => readDevices_last kept known full
          · rw [if_neg full, ← noted]
            refine follows (fun later => (readDevices_new kept known full).2) ?_
            exact ih (@readDevices_new _ _ [] kept known full).1

theorem changesInRooms_eq (upper : Nat)
    (keysChanged : RoomId → List (Nat × UserId)) (rooms : List RoomId)
    (kept : changes.Kept) :
    changesInRooms upper keysChanged rooms changes =
      readDevices changes (rooms.flatMap (fun roomId =>
        (keysChanged roomId).takeWhile (fun row => row.1 ≤ upper))) := by
  induction rooms generalizing changes with
  | nil => rfl
  | cons roomId rest ih =>
      have read := @changesInRoom_read _ (keysChanged roomId) upper kept
      rw [flatMap_cons]
      unfold changesInRooms
      split
      next after found =>
        rw [found] at read
        rw [ih read.1, read.2]
      next after found =>
        rw [found] at read
        exact (read _).symm

theorem foldl_deviceNote_lt {bound : Nat} :
    (rows.foldl note changes).maxEduCount < bound ↔
      changes.maxEduCount < bound ∧ ∀ row ∈ rows, row.1 < bound := by
  induction rows generalizing changes with
  | nil => simp
  | cons row rest ih =>
      have noted : (changes.note row).maxEduCount =
          Nat.max changes.maxEduCount row.1 := by
        unfold note
        simp only
        split
        · rfl
        · rfl
      rw [foldl_cons, ih, forall_mem_cons, ← and_assoc, noted]
      exact and_congr_left (fun _ => Nat.max_lt)

theorem mem_foldl_deviceNote {userId : UserId} :
    userId ∈ (rows.foldl note changes).deviceListChanges ↔
      userId ∈ changes.deviceListChanges ∨ ∃ row ∈ rows, row.2 = userId := by
  induction rows generalizing changes with
  | nil => simp
  | cons row rest ih =>
      have noted : userId ∈ (changes.note row).deviceListChanges ↔
          userId ∈ changes.deviceListChanges ∨ row.2 = userId := by
        unfold note
        simp only
        split
        next known =>
          exact (or_iff_left_of_imp (fun same => same ▸ known)).symm
        · rw [mem_append, mem_singleton, eq_comm]
      rw [foldl_cons, ih, noted, or_assoc]
      simp

theorem events_foldl_deviceNote
    (events : changes.events = changes.deviceListChanges.map
      (fun userId => .deviceListUpdate (deviceListUpdate userId))) :
    (rows.foldl note changes).events =
      (rows.foldl note changes).deviceListChanges.map
        (fun userId => .deviceListUpdate (deviceListUpdate userId)) := by
  induction rows generalizing changes with
  | nil => exact events
  | cons row rest ih =>
      rw [foldl_cons]
      apply ih
      unfold note
      simp only
      split
      · exact events
      · rw [map_append, events]
        rfl

end

namespace Selecting

variable (selecting : Selecting)

theorem flatMap_keysChanged :
    (selecting.cache.serverRooms selecting.server).flatMap (fun roomId =>
        (selecting.keysChanged roomId).takeWhile
          (fun row => row.1 ≤ selecting.upper)) = selecting.deviceRows := by
  unfold deviceRows
  congr 1
  funext roomId
  have sorted := (selecting.stores.keychangeidUserid roomId).sorted.imp
    (fun less => le_of_lt less)
  unfold keysChanged EduStores.roomKeysChanged
  rw [dropWhile_eq_filter _ sorted,
    takeWhile_eq_filter _ ((sorted.filter _).filter _), filter_filter,
    filter_filter]
  congr 1
  funext row
  simp only [inWindow]
  cases selecting.config.userIsLocal row.2 with
  | true => simp [Bool.and_comm]
  | false => simp

def devicesRead : List (Nat × UserId) :=
  readUpTo selectEduLimit changedUser ∅ selecting.deviceRows

theorem mem_devicesRead {row : Nat × UserId} :
    row ∈ selecting.devicesRead ↔ selecting.DeviceRowRead row := by
  unfold devicesRead DeviceRowRead
  rw [mem_readUpTo (by decide), Finset.empty_union]

theorem selectEdusDeviceChanges_eq (maxEduCount : Nat) :
    selecting.selectEdusDeviceChanges maxEduCount =
      let changes := selecting.devicesRead.foldl note
        ⟨maxEduCount, [], []⟩
      (changes.events, changes.maxEduCount) := by
  have kept : DeviceChanges.Kept ⟨maxEduCount, [], []⟩ :=
    ⟨nodup_nil, rfl, Nat.zero_lt_succ 97⟩
  unfold selectEdusDeviceChanges
  rw [changesInRooms_eq selecting.upper selecting.keysChanged _ kept,
    flatMap_keysChanged]
  rfl

theorem selectEdusDeviceChanges_lt {maxEduCount bound : Nat} :
    (selecting.selectEdusDeviceChanges maxEduCount).2 < bound ↔
      maxEduCount < bound ∧
        ∀ row, selecting.DeviceRowRead row → row.1 < bound := by
  rw [selectEdusDeviceChanges_eq]
  simp only [foldl_deviceNote_lt, mem_devicesRead]

theorem mem_selectEdusDeviceChanges {maxEduCount : Nat} {edu : Edu} :
    edu ∈ (selecting.selectEdusDeviceChanges maxEduCount).1 ↔
      ∃ row, selecting.DeviceRowRead row ∧
        .deviceListUpdate (deviceListUpdate row.2) = edu := by
  rw [selectEdusDeviceChanges_eq]
  simp only
  rw [events_foldl_deviceNote rfl, mem_map]
  constructor
  · rintro ⟨userId, member, rfl⟩
    obtain ⟨row, read, rfl⟩ :=
      (mem_foldl_deviceNote.mp member).resolve_left not_mem_nil
    exact ⟨row, selecting.mem_devicesRead.mp read, rfl⟩
  · rintro ⟨row, read, rfl⟩
    exact ⟨row.2, mem_foldl_deviceNote.mpr (.inr
      ⟨row, selecting.mem_devicesRead.mpr read, rfl⟩), rfl⟩

end Selecting

theorem receiptsInRoom_eq (selecting : Selecting)
    (rows : List ((Nat ×ₗ UserId) × ReadReceipt))
    {scanned : Scanned UserId ReceiptData}
    (room : scanned.picked.keys.length < selectReceiptLimit) :
    receiptsInRoom selecting.config selecting.upper rows
        scanned.picked.keys.length scanned =
      scanRows selectReceiptLimit selecting.upper countOf
        selecting.pickReceipt rows scanned := by
  induction rows generalizing scanned with
  | nil => rfl
  | cons row rest ih =>
      simp only [receiptsInRoom, scanRows, Selecting.pickReceipt]
      by_cases above : selecting.upper < countOf row
      · rw [if_pos above, if_pos above]
      · rw [if_neg above, if_neg above]
        by_cases isLocal : selecting.config.userIsLocal (userOf row) = true
        · simp only [isLocal, Bool.not_true, Bool.false_eq_true, if_false,
            if_true]
          cases known : scanned.picked.lookup (userOf row) with
          | none =>
              have more := length_keys_insert_new (receiptData row.2)
                (AList.lookup_eq_none.mp known)
              simp only [more]
              by_cases full :
                  selectReceiptLimit ≤ scanned.picked.keys.length + 1
              · rw [if_pos full, if_pos full]
              · rw [if_neg full, if_neg full, ← more]
                exact @ih ⟨_, _⟩ (more ▸ not_le.mp full)
          | some data =>
              have old : userOf row ∈ scanned.picked :=
                AList.lookup_isSome.mp (known ▸ rfl)
              have same := length_keys_insert_old (receiptData row.2) old
              simp only [same]
              rw [if_neg (not_le.mpr room), ← same]
              exact @ih ⟨_, _⟩ (same ▸ room)
        · simp only [isLocal, Bool.not_false, if_true, if_false,
            Bool.false_eq_true]
          exact @ih ⟨Nat.max scanned.upTo (countOf row), scanned.picked⟩ room

namespace Selecting

variable (selecting : Selecting)

theorem takeWhile_receipts (roomId : RoomId) :
    (selecting.stores.readreceiptsSince roomId selecting.since).takeWhile
        (fun row => countOf row ≤ selecting.upper) =
      selecting.receiptRows roomId := by
  have sorted :=
    counts_sorted (selecting.stores.readreceiptidReadreceipt roomId).receipts
  unfold EduStores.readreceiptsSince receiptRows
  rw [dropWhile_eq_filter _ sorted,
    takeWhile_eq_filter _ (sorted.filter _), filter_filter]
  congr 1
  funext row
  exact Bool.and_comm _ _

def receiptsRead (roomId : RoomId) :
    List ((Nat ×ₗ UserId) × ReadReceipt) :=
  readUpTo selectReceiptLimit (pickKey selecting.pickReceipt) ∅
    (selecting.receiptRows roomId)

theorem mem_receiptsRead {roomId : RoomId}
    {row : (Nat ×ₗ UserId) × ReadReceipt} :
    row ∈ selecting.receiptsRead roomId ↔
      selecting.ReceiptRowRead roomId row := by
  unfold receiptsRead ReceiptRowRead
  rw [mem_readUpTo (by decide), Finset.empty_union]

theorem selectEdusReceiptsRoom_eq (roomId : RoomId) (maxEduCount : Nat) :
    selecting.selectEdusReceiptsRoom roomId maxEduCount =
      (selecting.receiptsRead roomId).foldl
        (Scanned.note countOf selecting.pickReceipt) ⟨maxEduCount, ∅⟩ := by
  have room : (∅ : ReceiptMap).keys.length < selectReceiptLimit := by decide
  unfold selectEdusReceiptsRoom receiptsRead
  rw [← takeWhile_receipts]
  exact (@receiptsInRoom_eq selecting _ ⟨maxEduCount, ∅⟩ room).trans
    (@scanRows_eq_foldl _ _ _ _ _ _ _ _ _ ⟨maxEduCount, ∅⟩ room)

theorem pickReceipt_eq_some {row : (Nat ×ₗ UserId) × ReadReceipt}
    {entry : UserId × ReceiptData} :
    selecting.pickReceipt row = some entry ↔
      selecting.config.userIsLocal (userOf row) = true ∧
        (userOf row, receiptData row.2) = entry := by
  unfold pickReceipt
  split
  next isLocal => simp [isLocal]
  next foreign => simp [foreign]

theorem receipts_apart (roomId : RoomId) :
    (selecting.receiptsRead roomId).Pairwise (fun row later =>
      ∀ entry ∈ selecting.pickReceipt row,
        ∀ other ∈ selecting.pickReceipt later, entry.1 ≠ other.1) := by
  have single :=
    (selecting.stores.readreceiptidReadreceipt roomId).single.filter
      (fun row => selecting.inWindow (countOf row))
  refine (single.sublist (readUpTo_prefixOf _ _ _ _).sublist).imp
    (fun {row later} apart entry picked other also => ?_)
  obtain ⟨_, rfl⟩ := selecting.pickReceipt_eq_some.mp picked
  obtain ⟨_, rfl⟩ := selecting.pickReceipt_eq_some.mp also
  exact apart

theorem selectEdusReceiptsRoom_lt {roomId : RoomId} {maxEduCount bound : Nat} :
    (selecting.selectEdusReceiptsRoom roomId maxEduCount).upTo < bound ↔
      maxEduCount < bound ∧ ∀ row, selecting.ReceiptRowRead roomId row →
          countOf row < bound := by
  rw [selectEdusReceiptsRoom_eq]
  simp only [foldl_note_upTo_lt, mem_receiptsRead]

theorem lookup_selectEdusReceiptsRoom {roomId : RoomId} {maxEduCount : Nat}
    {userId : UserId} {data : ReceiptData} :
    (selecting.selectEdusReceiptsRoom roomId maxEduCount).picked.lookup
        userId = some data ↔
      ∃ row, selecting.ReceiptRowRead roomId row ∧
        selecting.pickReceipt row = some (userId, data) := by
  rw [selectEdusReceiptsRoom_eq,
    lookup_foldl_note (selecting.receipts_apart roomId)
      (fun row member entry picked => AList.lookup_empty _)]
  simp [mem_receiptsRead]

theorem receiptsInRooms_lt {rooms : List RoomId} {maxEduCount bound : Nat} :
    (selecting.receiptsInRooms rooms maxEduCount).2 < bound ↔
      maxEduCount < bound ∧ ∀ roomId ∈ rooms, ∀ row,
        selecting.ReceiptRowRead roomId row → countOf row < bound := by
  induction rooms generalizing maxEduCount with
  | nil => simp [receiptsInRooms]
  | cons roomId rest ih =>
      have tail : (selecting.receiptsInRooms (roomId :: rest)
          maxEduCount).2 = (selecting.receiptsInRooms rest
            (selecting.selectEdusReceiptsRoom roomId maxEduCount).upTo).2 := by
        simp only [receiptsInRooms]
        split
        · rfl
        · rfl
      rw [tail, ih, selectEdusReceiptsRoom_lt, forall_mem_cons, and_assoc]

theorem mem_receiptsInRooms {rooms : List RoomId} {maxEduCount : Nat}
    {roomId : RoomId} {userId : UserId} {data : ReceiptData} :
    (∃ read, (roomId, read) ∈ (selecting.receiptsInRooms rooms maxEduCount).1 ∧
        read.lookup userId = some data) ↔
      roomId ∈ rooms ∧ ∃ row, selecting.ReceiptRowRead roomId row ∧
        selecting.pickReceipt row = some (userId, data) := by
  induction rooms generalizing maxEduCount with
  | nil => simp [receiptsInRooms]
  | cons first rest ih =>
      have later := @ih
        (selecting.selectEdusReceiptsRoom first maxEduCount).upTo
      have here := @lookup_selectEdusReceiptsRoom selecting first maxEduCount
        userId data
      simp only [receiptsInRooms]
      split
      next isEmpty =>
        have nothing : (selecting.selectEdusReceiptsRoom first
            maxEduCount).picked.lookup userId ≠ some data := by
          intro found
          have inside : userId ∈
              (selecting.selectEdusReceiptsRoom first maxEduCount).picked :=
            AList.lookup_isSome.mp (by rw [found]; rfl)
          have member := AList.mem_keys.mp inside
          rw [List.isEmpty_iff.mp isEmpty] at member
          cases member
        rw [later, mem_cons]
        refine ⟨fun both => ⟨.inr both.1, both.2⟩, fun both => ?_⟩
        refine ⟨both.1.resolve_left (fun same => ?_), both.2⟩
        exact nothing (here.mpr (same ▸ both.2))
      · constructor
        · rintro ⟨read, member, found⟩
          rcases mem_cons.mp member with isFirst | inside
          · obtain ⟨rfl, rfl⟩ := Prod.mk.inj isFirst
            exact ⟨mem_cons_self, here.mp found⟩
          · have both := later.mp ⟨read, inside, found⟩
            exact ⟨mem_cons_of_mem first both.1, both.2⟩
        · rintro ⟨member, row⟩
          rcases mem_cons.mp member with same | inside
          · subst same
            exact ⟨_, mem_cons_self, here.mpr row⟩
          · obtain ⟨read, listed, found⟩ := later.mpr ⟨inside, row⟩
            exact ⟨read, mem_cons_of_mem _ listed, found⟩

theorem selectEdusReceipts_lt {maxEduCount bound : Nat} :
    (selecting.selectEdusReceipts maxEduCount).2 < bound ↔ maxEduCount < bound ∧
        ∀ roomId ∈ selecting.cache.serverRooms selecting.server, ∀ row,
          selecting.ReceiptRowRead roomId row → countOf row < bound := by
  rw [← receiptsInRooms_lt]
  unfold selectEdusReceipts
  simp only
  split
  · exact Iff.rfl
  · exact Iff.rfl

def ListsReceipt (edu : Edu) (roomId : RoomId) (userId : UserId)
    (data : ReceiptData) : Prop :=
  ∃ receipts read, edu = .receipt receipts ∧ (roomId, read) ∈ receipts ∧
    read.lookup userId = some data

theorem mem_selectEdusReceipts {maxEduCount : Nat} {roomId : RoomId}
    {userId : UserId} {data : ReceiptData} :
    (∃ edu ∈ (selecting.selectEdusReceipts maxEduCount).1,
        ListsReceipt edu roomId userId data) ↔
      roomId ∈ selecting.cache.serverRooms selecting.server ∧
        ∃ row, selecting.ReceiptRowRead roomId row ∧
          selecting.pickReceipt row = some (userId, data) := by
  rw [← @mem_receiptsInRooms selecting _ maxEduCount]
  unfold selectEdusReceipts
  simp only
  split
  next isEmpty =>
    rw [List.isEmpty_iff.mp isEmpty]
    simp
  · constructor
    · rintro ⟨edu, isEdu, receipts, read, rfl, member, found⟩
      cases isEdu
      exact ⟨read, member, found⟩
    · rintro ⟨read, member, found⟩
      exact ⟨_, rfl, _, read, rfl, member, found⟩

theorem takeWhile_presence :
    (selecting.stores.presenceSince selecting.since).takeWhile
        (fun row => countOf row ≤ selecting.upper) =
      selecting.presenceRows := by
  have sorted := counts_sorted selecting.stores.presence.presenceidPresence
  unfold EduStores.presenceSince presenceRows
  rw [takeWhile_eq_filter _ (sorted.filter _), filter_filter]
  congr 1
  funext row
  exact Bool.and_comm _ _

def presenceRead : List ((Nat ×ₗ UserId) × Presence) :=
  readUpTo selectPresenceLimit (pickKey selecting.pickPresence) ∅
    selecting.presenceRows

theorem mem_presenceRead {row : (Nat ×ₗ UserId) × Presence} :
    row ∈ selecting.presenceRead ↔ selecting.PresenceRowRead row := by
  unfold presenceRead PresenceRowRead
  rw [mem_readUpTo (by decide), Finset.empty_union]

theorem pickPresence_eq_some {row : (Nat ×ₗ UserId) × Presence}
    {entry : UserId × PresenceUpdate} :
    selecting.pickPresence row = some entry ↔
      (selecting.config.userIsLocal (userOf row) = true ∧
        selecting.cache.serverSeesUser selecting.server (userOf row) = true) ∧
        (userOf row, presenceUpdate selecting.now (userOf row) row.2) =
          entry := by
  unfold pickPresence
  rw [← Bool.and_eq_true]
  split
  next picks => simp [picks]
  next skips => simp [skips]

theorem presence_apart :
    selecting.presenceRead.Pairwise (fun row later =>
      ∀ entry ∈ selecting.pickPresence row,
        ∀ other ∈ selecting.pickPresence later, entry.1 ≠ other.1) := by
  have single := selecting.stores.presence.single.filter
    (fun row => selecting.inWindow (countOf row))
  refine (single.sublist (readUpTo_prefixOf _ _ _ _).sublist).imp
    (fun {row later} apart entry picked other also => ?_)
  obtain ⟨_, rfl⟩ := selecting.pickPresence_eq_some.mp picked
  obtain ⟨_, rfl⟩ := selecting.pickPresence_eq_some.mp also
  exact apart

theorem scanPresence_eq (maxEduCount : Nat) :
    scanRows selectPresenceLimit selecting.upper countOf selecting.pickPresence
        (selecting.stores.presenceSince selecting.since)
        ⟨maxEduCount, ∅⟩ =
      selecting.presenceRead.foldl
        (Scanned.note countOf selecting.pickPresence) ⟨maxEduCount, ∅⟩ := by
  unfold presenceRead
  rw [← takeWhile_presence]
  exact @scanRows_eq_foldl _ _ _ _ _ _ _ _ _ ⟨maxEduCount, ∅⟩
    (Nat.zero_lt_succ 255)

theorem selectEdusPresence_lt {maxEduCount bound : Nat} :
    (selecting.selectEdusPresence maxEduCount).2 < bound ↔ maxEduCount < bound ∧
        ∀ row, selecting.PresenceRowRead row → countOf row < bound := by
  unfold selectEdusPresence
  simp only [scanPresence_eq, ← mem_presenceRead]
  split
  · exact foldl_note_upTo_lt
  · exact foldl_note_upTo_lt

def ListsPresence (edu : Edu) (update : PresenceUpdate) : Prop :=
  ∃ push, edu = .presence push ∧ update ∈ push

theorem mem_selectEdusPresence {maxEduCount : Nat} {update : PresenceUpdate} :
    (∃ edu ∈ (selecting.selectEdusPresence maxEduCount).1,
        ListsPresence edu update) ↔
      ∃ row, selecting.PresenceRowRead row ∧
        ∃ userId, selecting.pickPresence row = some (userId, update) := by
  have looked : ∀ userId, (selecting.presenceRead.foldl
        (Scanned.note countOf selecting.pickPresence)
          ⟨maxEduCount, ∅⟩).picked.lookup userId = some update ↔
        ∃ row, selecting.PresenceRowRead row ∧
          selecting.pickPresence row = some (userId, update) := by
    intro userId
    rw [lookup_foldl_note selecting.presence_apart
      (fun row member entry picked => AList.lookup_empty _)]
    simp [mem_presenceRead]
  have listed : (∃ row, selecting.PresenceRowRead row ∧
      ∃ userId, selecting.pickPresence row = some (userId, update)) ↔
        ∃ userId, (selecting.presenceRead.foldl
          (Scanned.note countOf selecting.pickPresence)
            ⟨maxEduCount, ∅⟩).picked.lookup userId = some update := by
    simp only [looked]
    constructor
    · rintro ⟨row, read, userId, picked⟩
      exact ⟨userId, row, read, picked⟩
    · rintro ⟨userId, row, read, picked⟩
      exact ⟨row, read, userId, picked⟩
  rw [listed]
  unfold selectEdusPresence
  simp only [scanPresence_eq]
  generalize selecting.presenceRead.foldl
    (Scanned.note countOf selecting.pickPresence) ⟨maxEduCount, ∅⟩ = scanned
  split
  next isEmpty =>
    constructor
    · rintro ⟨edu, isEdu, _⟩
      cases isEdu
    · rintro ⟨userId, found⟩
      have inside : userId ∈ scanned.picked :=
        AList.lookup_isSome.mp (by rw [found]; rfl)
      have member := AList.mem_keys.mp inside
      rw [List.isEmpty_iff.mp isEmpty] at member
      cases member
  · constructor
    · rintro ⟨edu, isEdu, push, rfl, member⟩
      cases isEdu
      obtain ⟨⟨userId, found⟩, entry, rfl⟩ := mem_map.mp member
      exact ⟨userId, AList.mem_lookup_iff.mpr entry⟩
    · rintro ⟨userId, found⟩
      exact ⟨_, rfl, _, rfl, mem_map.mpr
        ⟨⟨userId, update⟩, AList.mem_lookup_iff.mp found, rfl⟩⟩

end Selecting

end ArcanaServer.Sending
