import ArcanaServer.Library.LimitedScan
import ArcanaServer.Library.SortedTable
import ArcanaServer.Matrix.Event
import ArcanaServer.Sending.Keys
import Mathlib.Data.List.Infix
import Mathlib.Data.Prod.Lex
import Mathlib.Data.String.Basic
import Mathlib.Logic.Function.Basic

namespace ArcanaServer.Sending

open Library ArcanaServer.Matrix SortedTable

/-! The stores of receipts, presence and changed keys.  Every row carries the
count that was drawn for it. -/

abbrev CountedRows (υ : Type) := SortedTable (Nat ×ₗ UserId) υ

section

variable {υ : Type}

variable (row : (Nat ×ₗ UserId) × υ)

def countOf : Nat := (ofLex row.1).1

def userOf : UserId := (ofLex row.1).2

def rowKey (count : Nat) (userId : UserId) : Nat ×ₗ UserId :=
  toLex (count, userId)

theorem rowKey_eta : rowKey (countOf row) (userOf row) = row.1 := rfl

theorem counts_sorted (table : CountedRows υ) :
    table.rows.Pairwise (fun row later => countOf row ≤ countOf later) :=
  table.sorted.imp (fun less => Prod.Lex.monotone_fst _ _ (le_of_lt less))

theorem eq_of_users_apart {rows : List ((Nat ×ₗ UserId) × υ)}
    (apart : rows.Pairwise (fun row later => userOf row ≠ userOf later))
    {row other : (Nat ×ₗ UserId) × υ} (first : row ∈ rows)
    (second : other ∈ rows) (same : userOf row = userOf other) :
    row = other := by
  have symmetric : Std.Symm (fun row later : (Nat ×ₗ UserId) × υ =>
      userOf row ≠ userOf later) := ⟨fun _ _ => Ne.symm⟩
  by_contra differs
  exact apart.forall first second differs same

end

inductive ReceiptThread where
  | unthreaded
  | main
  | thread (eventId : EventId)
  deriving DecidableEq, Repr

structure Receipt where
  ts : Option Nat
  thread : ReceiptThread
  deriving DecidableEq, Repr

/-- The event of a receipt names one event, of which the user of the row has a
receipt of the type `m.read`. -/
structure ReadReceipt where
  eventId : EventId
  receipt : Receipt
  deriving DecidableEq, Repr

/-- The receipts of a room, at most one for a user. -/
structure RoomReceipts where
  receipts : CountedRows ReadReceipt
  single : receipts.rows.Pairwise (fun row later => userOf row ≠ userOf later)

def RoomReceipts.none : RoomReceipts := ⟨.empty, .nil⟩

theorem replaced_single {table : CountedRows ReadReceipt} {count : Nat}
    {userId : UserId} {receipt : ReadReceipt}
    (single : table.rows.Pairwise (fun row later => userOf row ≠ userOf later))
    (gone : ∀ row ∈ table, userOf row ≠ userId) :
    (table.put (rowKey count userId) receipt).rows.Pairwise
      (fun row later => userOf row ≠ userOf later) := by
  refine (table.put _ receipt).sorted.imp_of_mem
    (fun {row later} member inside less => ?_)
  have symmetric : Std.Symm (fun row later : (Nat ×ₗ UserId) × ReadReceipt =>
      userOf row ≠ userOf later) := ⟨fun _ _ => Ne.symm⟩
  rcases mem_put.mp member with new | old
  · rcases mem_put.mp inside with same | old
    · rw [new, same] at less
      exact absurd less (lt_irrefl _)
    · rw [new]
      exact Ne.symm (gone later old.1)
  · rcases mem_put.mp inside with new | other
    · rw [new]
      exact gone row old.1
    · refine single.forall old.1 other.1 (fun same => ?_)
      rw [same] at less
      exact lt_irrefl _ less

inductive PresenceState where
  | online
  | offline
  | unavailable
  | busy
  | custom (text : String)
  deriving DecidableEq, Repr

structure Presence where
  state : PresenceState
  currentlyActive : Bool
  lastActiveTs : Nat
  statusMsg : Option String
  deriving DecidableEq, Repr

structure PresenceEventContent where
  presence : PresenceState
  statusMsg : Option String
  currentlyActive : Option Bool
  lastActiveAgo : Option Nat
  deriving DecidableEq, Repr

/-- The integers of JSON stay below 2 ^ 53. -/
def newSaturating (value : Nat) : Nat := Nat.min value (2 ^ 53 - 1)

def Presence.toPresenceEvent (presence : Presence) (now : Nat) :
    PresenceEventContent where
  presence := presence.state
  statusMsg := presence.statusMsg
  currentlyActive := some presence.currentlyActive
  lastActiveAgo := some (newSaturating (now - presence.lastActiveTs))

structure PresenceTable where
  presenceidPresence : CountedRows Presence
  useridPresenceid : UserId → Option Nat
  indexed : ∀ row ∈ presenceidPresence,
    useridPresenceid (userOf row) = some (countOf row)

namespace PresenceTable

def none : PresenceTable where
  presenceidPresence := .empty
  useridPresenceid _ := Option.none
  indexed _ member := absurd member SortedTable.not_mem_empty

variable (table : PresenceTable)

theorem single : table.presenceidPresence.rows.Pairwise
    (fun row later => userOf row ≠ userOf later) := by
  refine table.presenceidPresence.sorted.imp_of_mem
    (fun {row later} member inside less same => ?_)
  have first := table.indexed row member
  have second := table.indexed later inside
  rw [← same, first] at second
  have equal : row.1 = later.1 := by
    rw [← rowKey_eta row, ← rowKey_eta later, Option.some.inj second, same]
  exact absurd less (equal ▸ lt_irrefl _)

def getPresence (userId : UserId) : Option (Nat × Presence) :=
  match table.useridPresenceid userId with
  | Option.none => Option.none
  | some count =>
      (table.presenceidPresence.get (rowKey count userId)).map
        (fun presence => (count, presence))

theorem getPresence_of_mem {row : (Nat ×ₗ UserId) × Presence}
    (member : row ∈ table.presenceidPresence) :
    table.getPresence (userOf row) = some (countOf row, row.2) := by
  unfold getPresence
  rw [table.indexed row member]
  have found : table.presenceidPresence.get
      (rowKey (countOf row) (userOf row)) = some row.2 :=
    get_eq_some.mpr member
  simp only [found, Option.map_some]

/-- An update that says nothing new and is older than the last one. -/
def isSpam (now : Nat) (userId : UserId) (presenceState : PresenceState)
    (lastActiveAgo : Option Nat) (statusMsg : Option String) : Bool :=
  let lastPresence := (table.getPresence userId).map
    (fun found => found.2.toPresenceEvent now)
  let stateChanged := match lastPresence with
    | Option.none => true
    | some presence => presence.presence != presenceState
  let statusMsgChanged := match lastPresence with
    | Option.none => true
    | some presence =>
        statusMsg.getD "" != presence.statusMsg.getD ""
  let lastLastActiveTs := match lastPresence with
    | Option.none => 0
    | some presence => now - presence.lastActiveAgo.getD 0
  let lastActiveTs := match lastActiveAgo with
    | Option.none => now
    | some lastActiveAgo => now - lastActiveAgo
  !statusMsgChanged && !stateChanged && lastActiveTs < lastLastActiveTs

def newPresence (now : Nat) (presenceState : PresenceState)
    (currentlyActive : Option Bool) (lastActiveAgo : Option Nat)
    (statusMsg : Option String) : Presence where
  state := presenceState
  currentlyActive := currentlyActive.getD false
  lastActiveTs := match lastActiveAgo with
    | Option.none => now
    | some lastActiveAgo => now - lastActiveAgo
  statusMsg := statusMsg.filter (fun text => !text.isEmpty)

def replaced (count : Nat) (userId : UserId) (presence : Presence) :
    CountedRows Presence :=
  let rows := table.presenceidPresence.put (rowKey count userId) presence
  match table.getPresence userId with
  | Option.none => rows
  | some (lastCount, _) => rows.erase (rowKey lastCount userId)

theorem mem_replaced {count : Nat} {userId : UserId} {presence : Presence}
    {row : (Nat ×ₗ UserId) × Presence}
    (member : row ∈ table.replaced count userId presence) :
    row = (rowKey count userId, presence) ∨
      row ∈ table.presenceidPresence ∧ userOf row ≠ userId := by
  have old : row ∈ table.presenceidPresence → userOf row = userId →
      table.getPresence userId = some (countOf row, row.2) :=
    fun inside same => same ▸ table.getPresence_of_mem inside
  unfold replaced at member
  simp only at member
  split at member
  next unknown =>
    refine (mem_put.mp member).imp_right (fun both =>
      ⟨both.1, fun same => ?_⟩)
    have found := old both.1 same
    rw [unknown] at found
    cases found
  next lastCount _ known =>
    obtain ⟨inside, apart⟩ := mem_erase.mp member
    refine (mem_put.mp inside).imp_right (fun both =>
      ⟨both.1, fun same => apart ?_⟩)
    have found := old both.1 same
    rw [known] at found
    obtain ⟨rfl, _⟩ := Prod.mk.inj (Option.some.inj found)
    rw [← same]
    rfl

def setPresence (count : Nat) (userId : UserId) (presence : Presence) :
    PresenceTable where
  presenceidPresence := table.replaced count userId presence
  useridPresenceid := Function.update table.useridPresenceid userId (some count)
  indexed row member := by
    rcases table.mem_replaced member with new | old
    · rw [new]
      exact Function.update_self ..
    · rw [Function.update_of_ne old.2]
      exact table.indexed row old.1

end PresenceTable

structure EduStores where
  readreceiptidReadreceipt : RoomId → RoomReceipts
  presence : PresenceTable
  keychangeidUserid : String → SortedTable Nat UserId

namespace EduStores

def none : EduStores where
  readreceiptidReadreceipt _ := .none
  presence := .none
  keychangeidUserid _ := .empty

/-- The keys are scanned by the text of the room id and compared by the text of
the user id. -/
def removesReceipt (userId roomId : String) (ofRoom : RoomId)
    (row : (Nat ×ₗ UserId) × ReadReceipt) : Bool :=
  roomId.toList.isPrefixOf ofRoom.toList &&
    userId.toList.isSuffixOf (userOf row).toList

theorem removesReceipt_own {userId roomId : String}
    {row : (Nat ×ₗ UserId) × ReadReceipt} (same : userOf row = userId) :
    removesReceipt userId roomId roomId row = true := by
  simp [removesReceipt, same]

def otherReceipts (stores : EduStores) (userId : UserId) (roomId : RoomId)
    (ofRoom : RoomId) : RoomReceipts where
  receipts := (stores.readreceiptidReadreceipt ofRoom).receipts.keep
    (fun row => !removesReceipt userId roomId ofRoom row)
  single := (stores.readreceiptidReadreceipt ofRoom).single.filter _

variable (stores : EduStores) (count : Nat) (userId : UserId)

def putReceipt (roomId : RoomId) (event : ReadReceipt) : RoomReceipts where
  receipts := (stores.otherReceipts userId roomId roomId).receipts.put
    (rowKey count userId) event
  single := by
    refine replaced_single (stores.otherReceipts userId roomId roomId).single
      (fun row member same => ?_)
    have kept := (SortedTable.mem_keep.mp member).2
    rw [removesReceipt_own same] at kept
    cases kept

def readreceiptUpdate (roomId : RoomId) (event : ReadReceipt) : EduStores :=
  { stores with
    readreceiptidReadreceipt :=
      Function.update (stores.otherReceipts userId roomId) roomId
        (stores.putReceipt count userId roomId event) }

def setPresence (presence : Presence) : EduStores :=
  { stores with
    presence := stores.presence.setPresence count userId presence }

def putKeychange (tables : String → SortedTable Nat UserId)
    (userOrRoomId : String) : String → SortedTable Nat UserId :=
  Function.update tables userOrRoomId ((tables userOrRoomId).put count userId)

def markDeviceKeyUpdate (rooms : List RoomId) : EduStores :=
  { stores with
    keychangeidUserid := putKeychange count userId
      (rooms.foldl (putKeychange count userId) stores.keychangeidUserid)
      userId }

def readreceiptsSince (stores : EduStores) (roomId : RoomId) (since : Nat) :
    List ((Nat ×ₗ UserId) × ReadReceipt) :=
  (stores.readreceiptidReadreceipt roomId).receipts.rows.dropWhile
    (fun row => countOf row ≤ since)

def presenceSince (stores : EduStores) (since : Nat) :
    List ((Nat ×ₗ UserId) × Presence) :=
  stores.presence.presenceidPresence.rows.filter
    (fun row => since < countOf row)

def roomKeysChanged (stores : EduStores) (roomId : RoomId) (start : Nat) :
    List (Nat × UserId) :=
  (stores.keychangeidUserid roomId).rows.dropWhile (fun row => row.1 ≤ start)

end EduStores

/-! The ephemeral events that a transaction carries along.  The rows of the
stores are those that the server writes itself, so that they can be read. -/

def selectPresenceLimit : Nat := 256
def selectReceiptLimit : Nat := 256
def eduLimit : Nat := 100
def selectEduLimit : Nat := eduLimit - 2

structure RoomCache where
  serverRooms : OwnedServerName → List RoomId
  roomsJoined : UserId → List RoomId
  isEncryptedRoom : RoomId → Bool

def RoomCache.serverSeesUser (cache : RoomCache) (server : OwnedServerName)
    (userId : UserId) : Bool :=
  (cache.serverRooms server).any
    (fun roomId => roomId ∈ cache.roomsJoined userId)

structure EduConfig where
  homeServer : ServerName
  allowOutgoingReadReceipts : Bool
  allowOutgoingPresence : Bool

def EduConfig.userIsLocal (config : EduConfig) (userId : UserId) : Bool :=
  serverName userId == some config.homeServer

structure DeviceListUpdateContent where
  userId : UserId
  deviceId : String
  deviceDisplayName : Option String
  streamId : Nat
  prevId : List Nat
  deleted : Option Bool
  keys : Option String
  deriving DecidableEq, Repr

structure ReceiptData where
  data : Receipt
  eventIds : List EventId
  deriving DecidableEq, Repr

abbrev ReceiptMap := AList (fun _ : UserId => ReceiptData)

structure PresenceUpdate where
  userId : UserId
  presence : PresenceState
  statusMsg : Option String
  lastActiveAgo : Nat
  currentlyActive : Bool
  deriving DecidableEq, Repr

inductive Edu where
  | deviceListUpdate (content : DeviceListUpdateContent)
  | receipt (receipts : List (RoomId × ReceiptMap))
  | presence (push : List PresenceUpdate)

def deviceListUpdate (userId : UserId) : DeviceListUpdateContent where
  userId := userId
  deviceId := "placeholder"
  deviceDisplayName := some "Placeholder"
  streamId := 1
  prevId := []
  deleted := none
  keys := none

def receiptData (event : ReadReceipt) : ReceiptData where
  data := event.receipt
  eventIds := [event.eventId]

def presenceUpdate (now : Nat) (userId : UserId) (presence : Presence) :
    PresenceUpdate :=
  let content := presence.toPresenceEvent now
  { userId
    presence := content.presence
    statusMsg := content.statusMsg
    lastActiveAgo := content.lastActiveAgo.getD 0
    currentlyActive := content.currentlyActive.getD false }

/-- What the selection for a server reads.  The window is behind `since` and up
to `upper`. -/
structure Selecting where
  stores : EduStores
  cache : RoomCache
  config : EduConfig
  server : OwnedServerName
  since : Nat
  upper : Nat
  now : Nat

structure DeviceChanges where
  maxEduCount : Nat
  deviceListChanges : List UserId
  events : List Edu

def changesInRoom (upper : Nat) : List (Nat × UserId) → DeviceChanges →
      Except DeviceChanges DeviceChanges
  | [], changes => .ok changes
  | row :: rest, changes =>
      if upper < row.1 then .ok changes
      else
        let changes := { changes with
          maxEduCount := Nat.max changes.maxEduCount row.1 }
        if row.2 ∈ changes.deviceListChanges then
          changesInRoom upper rest changes
        else
          let eventsLen := changes.events.length
          let changes := { changes with
            deviceListChanges := changes.deviceListChanges ++ [row.2]
            events := changes.events ++
              [.deviceListUpdate (deviceListUpdate row.2)] }
          if selectEduLimit - 1 ≤ eventsLen then .error changes
          else changesInRoom upper rest changes

def changesInRooms (upper : Nat) (keysChanged : RoomId → List (Nat × UserId)) :
    List RoomId → DeviceChanges → DeviceChanges
  | [], changes => changes
  | roomId :: rest, changes =>
      match changesInRoom upper (keysChanged roomId) changes with
      | .ok changes => changesInRooms upper keysChanged rest changes
      | .error changes => changes

namespace Selecting

variable (selecting : Selecting)

def keysChanged (roomId : RoomId) : List (Nat × UserId) :=
  (selecting.stores.roomKeysChanged roomId selecting.since).filter
    (fun row => selecting.config.userIsLocal row.2)

def selectEdusDeviceChanges (maxEduCount : Nat) : List Edu × Nat :=
  let changes := changesInRooms selecting.upper selecting.keysChanged
    (selecting.cache.serverRooms selecting.server) ⟨maxEduCount, [], []⟩
  (changes.events, changes.maxEduCount)

end Selecting

def receiptsInRoom (config : EduConfig) (upper : Nat) :
    List ((Nat ×ₗ UserId) × ReadReceipt) → Nat → Scanned UserId ReceiptData →
      Scanned UserId ReceiptData
  | [], _, scanned => scanned
  | row :: rest, num, scanned =>
      if upper < countOf row then scanned
      else
        let scanned :=
          { scanned with upTo := Nat.max scanned.upTo (countOf row) }
        if !config.userIsLocal (userOf row) then
          receiptsInRoom config upper rest num scanned
        else
          let known := scanned.picked.lookup (userOf row)
          let scanned := { scanned with
            picked := scanned.picked.insert (userOf row) (receiptData row.2) }
          match known with
          | none =>
              if selectReceiptLimit ≤ num + 1 then scanned
              else receiptsInRoom config upper rest (num + 1) scanned
          | some _ => receiptsInRoom config upper rest num scanned

namespace Selecting

variable (selecting : Selecting)

def selectEdusReceiptsRoom (roomId : RoomId) (maxEduCount : Nat) :
    Scanned UserId ReceiptData :=
  receiptsInRoom selecting.config selecting.upper
    (selecting.stores.readreceiptsSince roomId selecting.since) 0
    ⟨maxEduCount, ∅⟩

def receiptsInRooms : List RoomId → Nat → List (RoomId × ReceiptMap) × Nat
  | [], maxEduCount => ([], maxEduCount)
  | roomId :: rest, maxEduCount =>
      let scanned := selecting.selectEdusReceiptsRoom roomId maxEduCount
      let (later, maxEduCount) := receiptsInRooms rest scanned.upTo
      if scanned.picked.keys.isEmpty then (later, maxEduCount)
      else ((roomId, scanned.picked) :: later, maxEduCount)

def selectEdusReceipts (maxEduCount : Nat) : Option Edu × Nat :=
  let (receipts, maxEduCount) := selecting.receiptsInRooms
    (selecting.cache.serverRooms selecting.server) maxEduCount
  if receipts.isEmpty then (none, maxEduCount)
  else (some (.receipt receipts), maxEduCount)

def pickPresence (row : (Nat ×ₗ UserId) × Presence) :
    Option (UserId × PresenceUpdate) :=
  if selecting.config.userIsLocal (userOf row) &&
      selecting.cache.serverSeesUser selecting.server (userOf row) then
    some (userOf row, presenceUpdate selecting.now (userOf row) row.2)
  else none

def selectEdusPresence (maxEduCount : Nat) : Option Edu × Nat :=
  let scanned := scanRows selectPresenceLimit selecting.upper countOf
    selecting.pickPresence (selecting.stores.presenceSince selecting.since)
    ⟨maxEduCount, ∅⟩
  if scanned.picked.keys.isEmpty then (none, scanned.upTo)
  else
    (some (.presence (scanned.picked.entries.map Sigma.snd)), scanned.upTo)

def selectEdus : List Edu × Nat :=
  let (deviceChanges, maxEduCount) :=
    selecting.selectEdusDeviceChanges selecting.since
  let (receipts, maxEduCount) :=
    if selecting.config.allowOutgoingReadReceipts then
      selecting.selectEdusReceipts maxEduCount
    else (none, maxEduCount)
  let (presence, maxEduCount) :=
    if selecting.config.allowOutgoingPresence then
      selecting.selectEdusPresence maxEduCount
    else (none, maxEduCount)
  (deviceChanges ++ presence.toList ++ receipts.toList, maxEduCount)

end Selecting

end ArcanaServer.Sending
