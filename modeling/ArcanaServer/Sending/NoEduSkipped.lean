import ArcanaServer.Library.Trace
import ArcanaServer.Sending.EduWindow
import ArcanaServer.Sending.Queue

namespace ArcanaServer.Sending

open Library ArcanaServer.Matrix List

inductive EduItem where
  | deviceChange (roomId : RoomId) (count : Nat) (userId : UserId)
  | receipt (roomId : RoomId) (count : Nat) (userId : UserId)
      (event : ReadReceipt)
  | presence (count : Nat) (userId : UserId) (presence : Presence)

def EduItem.count : EduItem → Nat
  | .deviceChange _ count _ => count
  | .receipt _ count _ _ => count
  | .presence count _ _ => count

def EduStores.Holds (stores : EduStores) : EduItem → Prop
  | .deviceChange roomId count userId =>
      (count, userId) ∈ stores.keychangeidUserid roomId
  | .receipt roomId count userId event =>
      (rowKey count userId, event) ∈
        (stores.readreceiptidReadreceipt roomId).receipts
  | .presence count userId presence =>
      (rowKey count userId, presence) ∈ stores.presence.presenceidPresence

def Includes (now : Nat) (edus : List Edu) : EduItem → Prop
  | .deviceChange _ _ userId => ∃ content,
      .deviceListUpdate content ∈ edus ∧ content.userId = userId
  | .receipt roomId _ userId event => ∃ edu ∈ edus,
      Selecting.ListsReceipt edu roomId userId (receiptData event)
  | .presence _ userId presence => ∃ edu ∈ edus,
      Selecting.ListsPresence edu (presenceUpdate now userId presence)

namespace Selecting

variable (selecting : Selecting)

def Qualifies (item : EduItem) : Prop :=
  selecting.stores.Holds item ∧
    match item with
    | .deviceChange roomId _ userId =>
        roomId ∈ selecting.cache.serverRooms selecting.server ∧
          selecting.config.userIsLocal userId = true
    | .receipt roomId _ userId _ =>
        selecting.config.allowOutgoingReadReceipts = true ∧
          roomId ∈ selecting.cache.serverRooms selecting.server ∧
          selecting.config.userIsLocal userId = true
    | .presence _ userId _ =>
        selecting.config.allowOutgoingPresence = true ∧
          selecting.config.userIsLocal userId = true ∧
          selecting.cache.serverSeesUser selecting.server userId = true

/-- What qualifies is selected or lies above the count that is stored. -/
def Complete : Prop :=
  ∀ item, selecting.Qualifies item → selecting.since < item.count →
    item.count ≤ selecting.upper →
    Includes selecting.now selecting.selectEdus.1 item ∨
      selecting.selectEdus.2 < item.count

def WithinLimit : EduItem → Prop
  | .deviceChange _ _ userId => ∃ row,
      selecting.DeviceRowRead row ∧ row.2 = userId
  | .receipt roomId count userId event =>
      selecting.ReceiptRowRead roomId (rowKey count userId, event)
  | .presence count userId presence =>
      selecting.PresenceRowRead (rowKey count userId, presence)

/-- What stands behind the limit of its scan has a greater count than all rows
that any scan comes to. -/
def NothingPassedOver : Prop :=
  ∀ item, selecting.Qualifies item → selecting.since < item.count →
    item.count ≤ selecting.upper → selecting.WithinLimit item ∨
      ∀ count, selecting.Reads count → count < item.count

variable (selecting : Selecting)

theorem selectEdus_lt {bound : Nat} :
    selecting.selectEdus.2 < bound ↔ selecting.since < bound ∧
      ∀ count, selecting.Reads count → count < bound := by
  have reads : (∀ count, selecting.Reads count → count < bound) ↔
      (∀ row, selecting.DeviceRowRead row → row.1 < bound) ∧
      (selecting.config.allowOutgoingReadReceipts = true →
        ∀ roomId ∈ selecting.cache.serverRooms selecting.server, ∀ row,
          selecting.ReceiptRowRead roomId row → countOf row < bound) ∧
      (selecting.config.allowOutgoingPresence = true →
        ∀ row, selecting.PresenceRowRead row → countOf row < bound) := by
    constructor
    · intro all
      exact ⟨fun row read => all _ (.device row read),
        fun allowed roomId shared row read =>
          all _ (.receipt allowed roomId shared row read),
        fun allowed row read => all _ (.presence allowed row read)⟩
    · rintro ⟨device, receipt, presence⟩ count read
      cases read with
      | device row read => exact device row read
      | receipt allowed roomId shared row read =>
          exact receipt allowed roomId shared row read
      | presence allowed row read => exact presence allowed row read
  rw [reads]
  unfold selectEdus
  simp only
  cases selecting.config.allowOutgoingReadReceipts with
  | true =>
      cases selecting.config.allowOutgoingPresence with
      | true =>
          simp only [if_true, selectEdusPresence_lt, selectEdusReceipts_lt,
            selectEdusDeviceChanges_lt, forall_const, and_assoc]
      | false =>
          simp [selectEdusReceipts_lt, selectEdusDeviceChanges_lt, and_assoc]
  | false =>
      cases selecting.config.allowOutgoingPresence with
      | true =>
          simp [selectEdusPresence_lt, selectEdusDeviceChanges_lt, and_assoc]
      | false => simp [selectEdusDeviceChanges_lt]

theorem mem_selectEdus : ∃ ofReceipts ofPresence, ∀ edu,
    edu ∈ selecting.selectEdus.1 ↔
      edu ∈ (selecting.selectEdusDeviceChanges selecting.since).1 ∨
      (selecting.config.allowOutgoingPresence = true ∧
        edu ∈ (selecting.selectEdusPresence ofPresence).1) ∨
      (selecting.config.allowOutgoingReadReceipts = true ∧
        edu ∈ (selecting.selectEdusReceipts ofReceipts).1) := by
  refine ⟨(selecting.selectEdusDeviceChanges selecting.since).2,
    (if selecting.config.allowOutgoingReadReceipts then
      selecting.selectEdusReceipts
        (selecting.selectEdusDeviceChanges selecting.since).2
    else (none, (selecting.selectEdusDeviceChanges selecting.since).2)).2,
    fun edu => ?_⟩
  unfold selectEdus
  simp only [mem_append, Option.mem_toList, or_assoc]
  cases selecting.config.allowOutgoingReadReceipts with
  | true | false =>
      cases selecting.config.allowOutgoingPresence with
      | true | false => simp

theorem isPresence_of_mem {maxEduCount : Nat} {edu : Edu}
    (member : edu ∈ (selecting.selectEdusPresence maxEduCount).1) :
    ∃ push, edu = .presence push := by
  unfold selectEdusPresence at member
  simp only at member
  split at member
  · cases member
  · cases member
    exact ⟨_, rfl⟩

theorem isReceipt_of_mem {maxEduCount : Nat} {edu : Edu}
    (member : edu ∈ (selecting.selectEdusReceipts maxEduCount).1) :
    ∃ receipts, edu = .receipt receipts := by
  unfold selectEdusReceipts at member
  simp only at member
  split at member
  · cases member
  · cases member
    exact ⟨_, rfl⟩

theorem includes_deviceChange {roomId : RoomId} {count : Nat}
    {userId : UserId} :
    Includes selecting.now selecting.selectEdus.1
        (.deviceChange roomId count userId) ↔
      selecting.WithinLimit (.deviceChange roomId count userId) := by
  obtain ⟨ofReceipts, ofPresence, members⟩ := selecting.mem_selectEdus
  simp only [Includes, WithinLimit, members]
  constructor
  · rintro ⟨content, inside, rfl⟩
    rcases inside with device | ⟨_, presence⟩ | ⟨_, receipt⟩
    · obtain ⟨row, read, same⟩ :=
        selecting.mem_selectEdusDeviceChanges.mp device
      injection same with same
      exact ⟨row, read, same ▸ rfl⟩
    · obtain ⟨push, isPresence⟩ := selecting.isPresence_of_mem presence
      cases isPresence
    · obtain ⟨receipts, isReceipt⟩ := selecting.isReceipt_of_mem receipt
      cases isReceipt
  · rintro ⟨row, read, rfl⟩
    exact ⟨_, .inl (selecting.mem_selectEdusDeviceChanges.mpr
      ⟨row, read, rfl⟩), rfl⟩

theorem includes_receipt {roomId : RoomId} {count : Nat} {userId : UserId}
    {event : ReadReceipt}
    (qualifies : selecting.Qualifies (.receipt roomId count userId event)) :
    Includes selecting.now selecting.selectEdus.1
        (.receipt roomId count userId event) ↔
      selecting.WithinLimit (.receipt roomId count userId event) := by
  obtain ⟨ofReceipts, ofPresence, members⟩ := selecting.mem_selectEdus
  obtain ⟨held, allowed, shared, isLocal⟩ := qualifies
  have listed := @mem_selectEdusReceipts selecting ofReceipts roomId userId
    (receiptData event)
  simp only [Includes, WithinLimit, members]
  constructor
  · rintro ⟨edu, inside, lists⟩
    rcases inside with device | ⟨_, presence⟩ | ⟨_, receipt⟩
    · obtain ⟨row, read, rfl⟩ := selecting.mem_selectEdusDeviceChanges.mp device
      obtain ⟨receipts, read, same, _⟩ := lists
      cases same
    · obtain ⟨push, rfl⟩ := selecting.isPresence_of_mem presence
      obtain ⟨receipts, read, same, _⟩ := lists
      cases same
    · obtain ⟨_, row, read, picked⟩ := listed.mp ⟨edu, receipt, lists⟩
      obtain ⟨_, same⟩ := selecting.pickReceipt_eq_some.mp picked
      have inRoom : row ∈
          (selecting.stores.readreceiptidReadreceipt roomId).receipts :=
        (mem_filter.mp read.1).1
      have equal : row = (rowKey count userId, event) := eq_of_users_apart
          (selecting.stores.readreceiptidReadreceipt roomId).single inRoom
          held (Prod.mk.inj same).1
      exact equal ▸ read
  · intro read
    obtain ⟨edu, receipt, lists⟩ := listed.mpr ⟨shared, _, read,
      selecting.pickReceipt_eq_some.mpr ⟨isLocal, rfl⟩⟩
    exact ⟨edu, .inr (.inr ⟨allowed, receipt⟩), lists⟩

theorem includes_presence {count : Nat} {userId : UserId} {presence : Presence}
    (qualifies : selecting.Qualifies (.presence count userId presence)) :
    Includes selecting.now selecting.selectEdus.1
        (.presence count userId presence) ↔
      selecting.WithinLimit (.presence count userId presence) := by
  obtain ⟨ofReceipts, ofPresence, members⟩ := selecting.mem_selectEdus
  obtain ⟨held, allowed, isLocal, sees⟩ := qualifies
  have listed := @mem_selectEdusPresence selecting ofPresence
    (presenceUpdate selecting.now userId presence)
  simp only [Includes, WithinLimit, members]
  constructor
  · rintro ⟨edu, inside, lists⟩
    rcases inside with device | ⟨_, isPresence⟩ | ⟨_, receipt⟩
    · obtain ⟨row, read, rfl⟩ := selecting.mem_selectEdusDeviceChanges.mp device
      obtain ⟨push, same, _⟩ := lists
      cases same
    · obtain ⟨row, read, other, picked⟩ := listed.mp ⟨edu, isPresence, lists⟩
      obtain ⟨_, same⟩ := selecting.pickPresence_eq_some.mp picked
      have user : userOf row = userId :=
        congrArg PresenceUpdate.userId (Prod.mk.inj same).2
      have equal : row = (rowKey count userId, presence) :=
        eq_of_users_apart selecting.stores.presence.single
          (mem_filter.mp read.1).1 held user
      exact equal ▸ read
    · obtain ⟨receipts, rfl⟩ := selecting.isReceipt_of_mem receipt
      obtain ⟨push, same, _⟩ := lists
      cases same
  · intro read
    obtain ⟨edu, isPresence, lists⟩ := listed.mpr ⟨_, read, userId,
      selecting.pickPresence_eq_some.mpr ⟨⟨isLocal, sees⟩, rfl⟩⟩
    exact ⟨edu, .inr (.inl ⟨allowed, isPresence⟩), lists⟩

theorem includes_iff {item : EduItem} (qualifies : selecting.Qualifies item) :
    Includes selecting.now selecting.selectEdus.1 item ↔
      selecting.WithinLimit item := by
  cases item with
  | deviceChange roomId count userId => exact selecting.includes_deviceChange
  | receipt roomId count userId event =>
      exact selecting.includes_receipt qualifies
  | presence count userId presence =>
      exact selecting.includes_presence qualifies

theorem complete_iff : selecting.Complete ↔ selecting.NothingPassedOver := by
  refine forall_congr' (fun item => forall_congr' (fun qualifies =>
    forall_congr' (fun above => forall_congr' (fun _ => ?_))))
  rw [selecting.includes_iff qualifies, selectEdus_lt]
  exact or_congr_right (and_iff_right above)

theorem nothingPassedOver_of_few
    (devices : selecting.deviceRows.length < selectEduLimit)
    (receipts : ∀ roomId ∈ selecting.cache.serverRooms selecting.server,
      (selecting.receiptRows roomId).length < selectReceiptLimit)
    (presence : selecting.presenceRows.length < selectPresenceLimit) :
    selecting.NothingPassedOver := by
  intro item qualifies above below
  have inside : selecting.inWindow item.count = true :=
    Bool.and_eq_true_iff.mpr ⟨decide_eq_true above, decide_eq_true below⟩
  refine .inl ?_
  cases item with
  | deviceChange roomId count userId =>
      obtain ⟨held, shared, isLocal⟩ := qualifies
      exact ⟨(count, userId), ⟨mem_flatMap.mpr ⟨roomId, shared, mem_filter.mpr
          ⟨held, Bool.and_eq_true_iff.mpr ⟨inside, isLocal⟩⟩⟩,
        (card_pickedBefore_le _ _ _).trans_lt devices⟩, rfl⟩
  | receipt roomId count userId event =>
      obtain ⟨held, _, shared, _⟩ := qualifies
      exact ⟨mem_filter.mpr ⟨held, inside⟩,
        (card_pickedBefore_le _ _ _).trans_lt (receipts roomId shared)⟩
  | presence count userId update =>
      exact ⟨mem_filter.mpr ⟨qualifies.1, inside⟩,
        (card_pickedBefore_le _ _ _).trans_lt presence⟩

theorem reads_le_upper {count : Nat} (read : selecting.Reads count) :
    count ≤ selecting.upper := by
  have inside : ∀ {count}, selecting.inWindow count = true →
      count ≤ selecting.upper :=
    fun window => of_decide_eq_true (Bool.and_eq_true_iff.mp window).2
  cases read with
  | device row read =>
      obtain ⟨roomId, _, member⟩ := mem_flatMap.mp read.1
      exact inside (Bool.and_eq_true_iff.mp (mem_filter.mp member).2).1
  | receipt allowed roomId shared row read | presence allowed row read =>
      exact inside (mem_filter.mp read.1).2

theorem selectEdus_le_upper (window : selecting.since ≤ selecting.upper) :
    selecting.selectEdus.2 ≤ selecting.upper :=
  Nat.le_of_lt_succ (selecting.selectEdus_lt.mpr ⟨Nat.lt_succ_of_le window,
      fun _ read => Nat.lt_succ_of_le (selecting.reads_le_upper read)⟩)

end Selecting

structure EduWorld where
  stores : EduStores
  cache : RoomCache
  config : EduConfig
  tables : Tables
  now : Nat

inductive EduAction where
  | readreceiptUpdate (userId : UserId) (roomId : RoomId) (event : ReadReceipt)
  | setPresence (userId : UserId) (presenceState : PresenceState)
      (currentlyActive : Option Bool) (lastActiveAgo : Option Nat)
      (statusMsg : Option String)
  | markDeviceKeyUpdate (userId : UserId)
  | changeRooms (cache : RoomCache)
  | configure (config : EduConfig)
  | nextCount
  | wait (duration : Nat)
  | sendTransaction (server : OwnedServerName)

namespace EduWorld

variable (world : EduWorld)

def selecting (server : OwnedServerName) : Selecting where
  stores := world.stores
  cache := world.cache
  config := world.config
  server := server
  since := world.tables.getLatestEducount server
  upper := world.tables.counter
  now := world.now

/-- A transaction carries the ephemeral events that are selected for it. -/
def step : EduAction → EduWorld × List Edu
  | .readreceiptUpdate userId roomId event =>
      let (count, tables) := world.tables.nextCount
      ({ world with
          stores := world.stores.readreceiptUpdate count userId roomId event
          tables }, [])
  | .setPresence userId presenceState currentlyActive lastActiveAgo
      statusMsg =>
      if world.stores.presence.isSpam world.now userId presenceState
          lastActiveAgo statusMsg then (world, [])
      else
        let (count, tables) := world.tables.nextCount
        ({ world with
            stores := world.stores.setPresence count userId
              (PresenceTable.newPresence world.now presenceState
                currentlyActive lastActiveAgo statusMsg)
            tables }, [])
  | .markDeviceKeyUpdate userId =>
      let (count, tables) := world.tables.nextCount
      ({ world with
          stores := world.stores.markDeviceKeyUpdate count userId
            ((world.cache.roomsJoined userId).filter
              world.cache.isEncryptedRoom)
          tables }, [])
  | .changeRooms cache => ({ world with cache }, [])
  | .configure config => ({ world with config }, [])
  | .nextCount => ({ world with tables := world.tables.nextCount.2 }, [])
  | .wait duration => ({ world with now := world.now + duration }, [])
  | .sendTransaction server =>
      let (edus, lastCount) := (world.selecting server).selectEdus
      ({ world with
          tables := world.tables.setLatestEducount server lastCount }, edus)

def Orderly : EduAction → Prop
  | .readreceiptUpdate _ _ _ => world.tables.counter + 1 < 2 ^ 64
  | .setPresence _ _ _ _ _ => world.tables.counter + 1 < 2 ^ 64
  | .markDeviceKeyUpdate _ => world.tables.counter + 1 < 2 ^ 64
  | .sendTransaction server => (world.selecting server).NothingPassedOver
  | _ => True

def few : EduAction → Bool
  | .sendTransaction server =>
      (world.selecting server).deviceRows.length < selectEduLimit &&
        ((world.cache.serverRooms server).all (fun roomId =>
          ((world.selecting server).receiptRows roomId).length <
            selectReceiptLimit) &&
          (world.selecting server).presenceRows.length < selectPresenceLimit)
  | _ => world.tables.counter + 1 < 2 ^ 64

theorem orderly_of_few {world : EduWorld} {action : EduAction}
    (few : world.few action = true) : world.Orderly action := by
  cases action with
  | sendTransaction server =>
      obtain ⟨devices, others⟩ := Bool.and_eq_true_iff.mp few
      obtain ⟨receipts, presence⟩ := Bool.and_eq_true_iff.mp others
      exact (world.selecting server).nothingPassedOver_of_few
        (of_decide_eq_true devices)
        (fun roomId shared =>
          of_decide_eq_true (all_eq_true.mp receipts roomId shared))
        (of_decide_eq_true presence)
  | readreceiptUpdate userId roomId event =>
      exact (decide_eq_true_iff.mp few : world.tables.counter + 1 < 2 ^ 64)
  | setPresence userId presenceState currentlyActive lastActiveAgo
      statusMsg =>
      exact (decide_eq_true_iff.mp few : world.tables.counter + 1 < 2 ^ 64)
  | markDeviceKeyUpdate userId =>
      exact (decide_eq_true_iff.mp few : world.tables.counter + 1 < 2 ^ 64)
  | changeRooms cache | configure config | nextCount | wait duration => trivial

end EduWorld

abbrev EduEntry := Entry EduWorld EduAction (List Edu)

def Adds (entry : EduEntry) (item : EduItem) : Prop :=
  ¬ entry.before.stores.Holds item ∧
    (entry.before.step entry.input).1.stores.Holds item

section

variable (history : List EduEntry) (server : OwnedServerName) (item : EduItem)

def SentIn : Prop :=
  ∃ entry ∈ history, entry.input = .sendTransaction server ∧
    Includes entry.before.now entry.output item

def StaysQualified : Prop :=
  ∀ entry ∈ history, entry.input = .sendTransaction server →
    (entry.before.selecting server).Qualifies item

end

/-- What is added is sent before the count of the server passes it. -/
def EverySent (history : List EduEntry) (world : EduWorld) : Prop :=
  ∀ earlier entry later, history = earlier ++ entry :: later →
    ∀ server item, Adds entry item → StaysQualified later server item →
      SentIn later server item ∨
        world.tables.getLatestEducount server < item.count

section

variable {stores : EduStores} {count : Nat} {userId : UserId}
  {item : EduItem}

theorem holds_readreceiptUpdate {roomId : RoomId} {event : ReadReceipt}
    (held : (stores.readreceiptUpdate count userId roomId event).Holds
      item) : stores.Holds item ∨ item.count = count := by
  cases item with
  | deviceChange ofRoom drawn user
  | presence drawn user presence => exact .inl held
  | receipt ofRoom drawn user receipt =>
      have kept : ∀ {row : (Nat ×ₗ UserId) × ReadReceipt},
          row ∈ (stores.otherReceipts userId roomId ofRoom).receipts →
          row ∈ (stores.readreceiptidReadreceipt ofRoom).receipts :=
        fun member => (SortedTable.mem_keep.mp member).1
      simp only [EduStores.Holds, EduStores.readreceiptUpdate,
        Function.update_apply] at held
      split at held
      next same =>
        subst same
        refine (SortedTable.mem_put.mp held).symm.imp
          (fun old => kept old.1) (fun new => ?_)
        exact congrArg countOf new
      · exact .inl (kept held)

theorem holds_setPresence {presence : Presence}
    (held : (stores.setPresence count userId presence).Holds item) :
    stores.Holds item ∨ item.count = count := by
  cases item with
  | deviceChange roomId drawn user
  | receipt roomId drawn user receipt => exact .inl held
  | presence drawn user old =>
      refine (stores.presence.mem_replaced held).symm.imp And.left
        (fun new => ?_)
      exact congrArg countOf new

theorem mem_putKeychange {tables : String → SortedTable Nat UserId}
    {userOrRoomId other : String} {row : Nat × UserId}
    (member : row ∈ EduStores.putKeychange count userId tables userOrRoomId
      other) : row ∈ tables other ∨ row.1 = count := by
  unfold EduStores.putKeychange at member
  rw [Function.update_apply] at member
  split at member
  next same =>
    subst same
    refine (SortedTable.mem_put.mp member).symm.imp And.left (fun new => ?_)
    rw [new]
  · exact .inl member

theorem mem_putKeychanges {rooms : List RoomId}
    {tables : String → SortedTable Nat UserId} {other : String}
    {row : Nat × UserId}
    (member : row ∈ rooms.foldl (EduStores.putKeychange count userId) tables
      other) : row ∈ tables other ∨ row.1 = count := by
  induction rooms generalizing tables with
  | nil => exact .inl member
  | cons roomId rest ih =>
      rcases ih member with earlier | new
      · exact mem_putKeychange earlier
      · exact .inr new

theorem holds_markDeviceKeyUpdate {rooms : List RoomId}
    (held : (stores.markDeviceKeyUpdate count userId rooms).Holds item) :
    stores.Holds item ∨ item.count = count := by
  cases item with
  | receipt roomId drawn user receipt
  | presence drawn user presence => exact .inl held
  | deviceChange roomId drawn user =>
      rcases mem_putKeychange held with earlier | new
      · exact mem_putKeychanges earlier
      · exact .inr new

end

section

variable {world : EduWorld} {action : EduAction}

theorem count_of_adds (orderly : world.Orderly action) {item : EduItem}
    (adds : Adds (entryOf EduWorld.step world action) item) :
    item.count = world.tables.counter + 1 ∧ (world.step action).1.tables =
        { world.tables with counter := world.tables.counter + 1 } := by
  obtain ⟨absent, present⟩ := adds
  cases action with
  | readreceiptUpdate userId roomId event =>
      simp only [entryOf, EduWorld.step,
        Tables.nextCount_fresh orderly] at present ⊢
      exact ⟨(holds_readreceiptUpdate present).resolve_left absent, trivial⟩
  | setPresence userId presenceState currentlyActive lastActiveAgo
      statusMsg =>
      simp only [entryOf, EduWorld.step,
        Tables.nextCount_fresh orderly] at present ⊢
      split at present
      · exact absurd present absent
      next notSpam =>
        rw [if_neg notSpam]
        exact ⟨(holds_setPresence present).resolve_left absent, rfl⟩
  | markDeviceKeyUpdate userId =>
      simp only [entryOf, EduWorld.step,
        Tables.nextCount_fresh orderly] at present ⊢
      exact ⟨(holds_markDeviceKeyUpdate present).resolve_left absent, trivial⟩
  | changeRooms cache | configure config
  | nextCount | wait duration
  | sendTransaction server => exact absurd present absent

theorem counter_le_step (world : EduWorld) (action : EduAction) :
    world.tables.counter ≤ (world.step action).1.tables.counter := by
  cases action with
  | setPresence userId presenceState currentlyActive lastActiveAgo
      statusMsg =>
      simp only [EduWorld.step]
      split
      · exact le_refl _
      · exact le_nextCounter _
  | readreceiptUpdate userId roomId event =>
      exact le_nextCounter _
  | markDeviceKeyUpdate userId
  | nextCount => exact le_nextCounter _
  | changeRooms cache | configure config | wait duration
  | sendTransaction server => exact le_refl _

theorem educount_step (world : EduWorld) (action : EduAction)
    (server : OwnedServerName) : (action = .sendTransaction server ∧
      (world.step action).1.tables.getLatestEducount server =
        (world.selecting server).selectEdus.2) ∨
    (world.step action).1.tables.getLatestEducount server =
      world.tables.getLatestEducount server := by
  cases action with
  | setPresence userId presenceState currentlyActive lastActiveAgo
      statusMsg =>
      refine .inr ?_
      simp only [EduWorld.step]
      split
      · rfl
      · rfl
  | readreceiptUpdate userId roomId event
  | markDeviceKeyUpdate userId | nextCount
  | changeRooms cache | configure config | wait duration => exact .inr rfl
  | sendTransaction other =>
      simp only [EduWorld.step, Tables.getLatestEducount_set]
      split
      next same =>
        subst same
        exact .inl ⟨rfl, rfl⟩
      · exact .inr rfl

end

def EduWorld.Counted (world : EduWorld) : Prop :=
  ∀ server, world.tables.getLatestEducount server ≤ world.tables.counter

theorem EduWorld.Counted.step {world : EduWorld} (counted : world.Counted)
    (action : EduAction) : (world.step action).1.Counted := by
  intro server
  refine le_trans ?_ (counter_le_step world action)
  rcases educount_step world action server with sends | same
  · rw [sends.2]
    exact (world.selecting server).selectEdus_le_upper (counted server)
  · rw [same]
    exact counted server

def Pending (history : List EduEntry) (world : EduWorld) : Prop :=
  ∀ earlier entry later, history = earlier ++ entry :: later →
    ∀ server item, Adds entry item → StaysQualified later server item →
      SentIn later server item ∨
        world.tables.getLatestEducount server < item.count ∧
          item.count ≤ world.tables.counter

theorem Pending.step {history : List EduEntry} {world : EduWorld}
    {action : EduAction} (pending : Pending history world)
    (counted : world.Counted) (orderly : world.Orderly action) :
    Pending (history ++ [entryOf EduWorld.step world action])
      (world.step action).1 := by
  intro earlier entry later split server item adds stays
  rcases snoc_split split with isLast | isEarlier
  · obtain ⟨_, rfl, rfl⟩ := isLast
    obtain ⟨drawn, tables⟩ := count_of_adds orderly adds
    rw [tables, drawn]
    exact .inr ⟨Nat.lt_succ_of_le (counted server), le_refl _⟩
  · obtain ⟨rest, rfl, same⟩ := isEarlier
    cases pending earlier entry rest same server item adds
        (fun after member => stays after (mem_append_left _ member)) with
    | inl sent =>
        obtain ⟨after, member, sends⟩ := sent
        exact .inl ⟨after, mem_append_left _ member, sends⟩
    | inr above =>
        have low := above.2.trans (counter_le_step world action)
        rcases educount_step world action server with sends | unmoved
        · obtain ⟨rfl, moved⟩ := sends
          have qualifies := stays
            (entryOf EduWorld.step world (.sendTransaction server))
            (mem_append_right _ mem_cons_self) rfl
          have complete := (world.selecting server).complete_iff.mpr orderly
          rw [moved]
          rcases complete item qualifies above.1 above.2 with
            included | greater
          · exact .inl ⟨_, mem_append_right _ mem_cons_self, rfl, included⟩
          · exact .inr ⟨greater, low⟩
        · rw [unmoved]
          exact .inr ⟨above.1, low⟩

theorem noneSkipped_iff {start : EduWorld} (counted : start.Counted)
    {history : List EduEntry} {world : EduWorld}
    (reaches : Reaches EduWorld.step start history world)
    (orderly : ∀ entry ∈ history, entry.before.Orderly entry.input) :
    (∀ selecting : Selecting,
      selecting.Complete ↔ selecting.NothingPassedOver) ∧
      EverySent history world := by
  have holds : world.Counted ∧ Pending history world := by
    refine Reaches.invariant (fun history world => world.Counted ∧
      Pending history world) ⟨counted, ?_⟩
      (fun history world action inv orderly =>
        ⟨inv.1.step action, inv.2.step inv.1 orderly⟩)
      reaches (Always.of_forall_mem orderly)
    intro earlier entry later split
    simp at split
  refine ⟨Selecting.complete_iff,
    fun earlier entry later split server item adds stays => ?_⟩
  exact (holds.2 earlier entry later split server item adds stays).imp_right
    And.left

namespace OneRoom

def roomId : RoomId := "!r:h"

def cache : RoomCache where
  serverRooms _ := [roomId]
  roomsJoined _ := [roomId]
  isEncryptedRoom _ := true

def config : EduConfig where
  homeServer := "h"
  allowOutgoingReadReceipts := true
  allowOutgoingPresence := true

def start : EduWorld where
  stores := .none
  cache := cache
  config := config
  tables := noTables
  now := 0

def actions : List EduAction :=
  [.markDeviceKeyUpdate "@a:h", .sendTransaction otherServer,
    .readreceiptUpdate "@a:h" roomId ⟨"$e", ⟨none, .main⟩⟩,
    .setPresence "@a:h" .online none none none, .sendTransaction otherServer]

theorem actions_everySent :
    (run EduWorld.step start actions).2.tables.getLatestEducount otherServer = 3 ∧
      (∀ selecting : Selecting,
        selecting.Complete ↔ selecting.NothingPassedOver) ∧
      EverySent (run EduWorld.step start actions).1
        (run EduWorld.step start actions).2 := by
  refine ⟨by decide +kernel, noneSkipped_iff (fun _ => le_refl _)
    (reaches_run _ _ _) (fun entry member => ?_)⟩
  apply EduWorld.orderly_of_few
  revert entry
  decide +kernel

def user (index : Nat) : UserId :=
  String.ofList ['@', Char.ofNat (index + 97), ':', 'h']

def keyChanges : SortedTable Nat UserId where
  rows := (List.range 99).map (fun index => (index + 1, user index))
  sorted := List.pairwise_lt_range.map _ (fun _ _ less => Nat.succ_lt_succ less)

def crowded : Selecting where
  stores := {
    readreceiptidReadreceipt _ := .none
    presence := PresenceTable.none.setPresence 100 (user 0)
      ⟨.online, true, 0, none⟩
    keychangeidUserid _ := keyChanges }
  cache := cache
  config := config
  server := otherServer
  since := 0
  upper := 100
  now := 0

/-- The change of the last user lies behind the limit and below the count of the
presence. -/
theorem crowded_skips : ¬ ∀ selecting : Selecting, selecting.Complete := by
  intro all
  have passed := crowded.complete_iff.mp (all crowded)
    (.deviceChange roomId 99 (user 98))
    ⟨mem_map.mpr ⟨98, by decide, rfl⟩, by decide +kernel,
      by decide +kernel⟩
    (by decide) (by decide)
  rcases passed with within | below
  · obtain ⟨row, read, same⟩ := within
    have behind : ∀ row ∈ crowded.deviceRows, row.2 = user 98 → selectEduLimit ≤
          (pickedBefore changedUser crowded.deviceRows row).card := by
      decide +kernel
    exact not_lt.mpr (behind row read.1 same) read.2
  · have presence : crowded.Reads 100 :=
      .presence rfl (rowKey 100 (user 0), ⟨.online, true, 0, none⟩)
        (by unfold Selecting.PresenceRowRead; decide +kernel)
    exact absurd (below 100 presence) (by decide)

end OneRoom

end ArcanaServer.Sending
