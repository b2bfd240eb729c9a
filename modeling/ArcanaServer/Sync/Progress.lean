import ArcanaServer.Library.Windows
import ArcanaServer.Sync.Confidentiality

namespace ArcanaServer.Sync

open ArcanaServer.Matrix List Function SlidingServer Option

/-! What a room's timelines have in common over the requests of one
connection. -/

def KnownUpTo (bound : Nat) (key : SnakeConnectionsKey)
    (connections : SnakeConnections) : Prop :=
  ∀ cache, connections key = some cache → ∀ listId roomId position,
    cache.knownRooms listId roomId = some position → position ≤ bound

namespace KnownUpTo

variable {bound : Nat} {key : SnakeConnectionsKey}
  {connections : SnakeConnections}

theorem mono {wider : Nat} (known : KnownUpTo bound key connections)
    (le : bound ≤ wider) : KnownUpTo wider key connections :=
  fun cache isCache listId roomId position isKnown =>
    (known cache isCache listId roomId position isKnown).trans le

theorem cached (known : KnownUpTo bound key connections) {listId : ListId}
    {roomId : RoomId} {position : Nat}
    (isKnown : (connections.cached key).knownRooms listId roomId =
      some position) : position ≤ bound := by
  unfold SnakeConnections.cached at isKnown
  cases isCache : connections key with
  | none =>
      rw [isCache] at isKnown
      cases isKnown
  | some cache =>
      rw [isCache] at isKnown
      exact known cache isCache listId roomId position isKnown

theorem updateKnownRooms (known : KnownUpTo bound key connections)
    (listId : ListId) (rooms : List RoomId) :
    KnownUpTo bound key
      (connections.updateSnakeSyncKnownRooms key listId rooms bound) := by
  intro cache isCache other roomId position isKnown
  unfold SnakeConnections.updateSnakeSyncKnownRooms at isCache
  rw [update_self] at isCache
  cases isCache
  simp only at isKnown
  rcases Decidable.em (other = listId) with same | differs
  · rw [same, update_self] at isKnown
    split at isKnown
    · exact le_of_eq (some.inj isKnown).symm
    · obtain ⟨_, _, isZero⟩ := map_eq_some_iff.mp isKnown
      omega
  · rw [update_of_ne differs] at isKnown
    exact known.cached isKnown

end KnownUpTo

def StartsUpTo (bound : Nat) (roomId : RoomId) (todoRooms : TodoRooms) :
    Prop :=
  ∀ todo, todoRooms roomId = some todo → todo.roomsince ≤ bound

theorem StartsUpTo.addRoom {bound : Nat} {roomId added : RoomId}
    {server : SlidingServer} {requiredState : List TypeStateKey}
    {limit : Nat} {known : RoomId → Option Nat} {todoRooms : TodoRooms}
    (earlier : StartsUpTo bound roomId todoRooms)
    (bounded : ∀ roomId, (known roomId).getD 0 ≤ bound) :
    StartsUpTo bound roomId
      (server.addRoom requiredState limit known todoRooms added) := by
  intro todo isTodo
  unfold SlidingServer.addRoom at isTodo
  rcases Decidable.em (roomId = added) with same | differs
  · rw [same, update_self] at isTodo
    cases isTodo
    exact (Nat.min_le_right _ _).trans (bounded added)
  · rw [update_of_ne differs] at isTodo
    exact earlier todo isTodo

namespace Exchange

variable {exchange : Exchange} {connections : SnakeConnections}

def KnowsUpToPos (exchange : Exchange) (connections : SnakeConnections) :
    Prop :=
  exchange.request.globalsince ≠ 0 →
    KnownUpTo exchange.request.globalsince exchange.snakeKey connections

theorem started_knownUpTo (known : exchange.KnowsUpToPos connections) :
    KnownUpTo exchange.request.globalsince exchange.snakeKey
      (exchange.started connections) := by
  unfold started
  split
  · intro cache isCache
    unfold SnakeConnections.forgetSnakeSyncConnection at isCache
    rw [update_self] at isCache
    cases isCache
  next later => exact known later

theorem merged_knownUpTo (known : exchange.KnowsUpToPos connections) :
    KnownUpTo exchange.request.globalsince exchange.snakeKey
      (exchange.merged connections).2.2 := by
  intro cache isCache listId roomId position isKnown
  have isUpdate : (exchange.merged connections).2.2 exchange.snakeKey =
      some _ := update_self _ _ _
  rw [isUpdate] at isCache
  cases isCache
  exact (started_knownUpTo known).cached isKnown

theorem noteKnown_knownUpTo {body : Request} {listId : ListId}
    {rooms : List RoomId} {senderUser : UserId} {senderDevice : Users.DeviceId}
    (known : KnownUpTo body.globalsince
      (senderUser, senderDevice, body.connId) connections) :
    KnownUpTo body.globalsince (senderUser, senderDevice, body.connId)
      (noteKnown senderUser senderDevice body listId rooms connections) := by
  unfold noteKnown
  cases isConn : body.connId with
  | none =>
      rw [isConn] at known
      exact known
  | some connId =>
      rw [isConn] at known
      exact known.updateKnownRooms listId rooms

theorem todo_knownUpTo (known : exchange.KnowsUpToPos connections) :
    KnownUpTo exchange.request.globalsince exchange.snakeKey
      (exchange.todo connections).2 := by
  rw [todo_eq]
  refine noteKnown_knownUpTo ?_
  unfold SlidingServer.handleLists
  simp only
  refine foldlRecOn _ _ (merged_knownUpTo known) ?_
  intro connections inner entry _
  exact noteKnown_knownUpTo inner

theorem todo_startsUpTo (known : exchange.KnowsUpToPos connections)
    (roomId : RoomId) :
    StartsUpTo exchange.request.globalsince roomId
      (exchange.todo connections).1 := by
  have bounded : ∀ listId roomId,
      ((exchange.merged connections).2.1 listId roomId).getD 0 ≤
        exchange.request.globalsince := by
    intro listId roomId
    cases isKnown : (exchange.merged connections).2.1 listId roomId with
    | none => exact Nat.zero_le _
    | some position => exact (started_knownUpTo known).cached isKnown
  rw [todo_eq]
  unfold SlidingServer.fetchSubscriptions SlidingServer.handleLists
  simp only
  refine foldlRecOn _ _ ?_ ?_
  · refine foldlRecOn _ _ (by simp [StartsUpTo]) ?_
    intro todoRooms earlier entry _
    unfold addList
    refine foldlRecOn _ _ earlier ?_
    intro todoRooms inner room _
    exact inner.addRoom (bounded _)
  · intro todoRooms earlier entry _
    exact earlier.addRoom (bounded _)

theorem syncEventsV5_knownUpTo (known : exchange.KnowsUpToPos connections) :
    KnownUpTo exchange.request.globalsince exchange.snakeKey
      (syncEventsV5 connections exchange).1 := by
  unfold syncEventsV5
  split
  next unknown => exact known unknown.1
  · simp only
    split
    · exact merged_knownUpTo known
    · exact todo_knownUpTo known

end Exchange

def roomOf (roomId : RoomId) : Except SyncError Response → Option Room
  | .ok response => response.rooms roomId
  | .error _ => none

def timelineOf (roomId : RoomId) (answer : Except SyncError Response) :
    List Pdu :=
  ((roomOf roomId answer).map Room.timeline).getD []

namespace Exchange

variable {exchange : Exchange} {connections : SnakeConnections}
  {roomId : RoomId} {todo : TodoRoom}

variable {response : Response}

theorem roomOf_eq
    (answered : (syncEventsV5 connections exchange).2 = .ok response) :
    roomOf roomId (syncEventsV5 connections exchange).2 =
      (exchange.processed connections roomId).room := by
  rw [answered]
  unfold syncEventsV5 at answered
  split at answered
  · cases answered
  · simp only at answered
    split at answered
    · cases answered
    · cases answered
      rfl

def table (exchange : Exchange) (roomId : RoomId) : PduTable :=
  (exchange.server.rooms roomId).table

def Since (exchange : Exchange) (count : PduCount) : Prop :=
  (exchange.request.globalsince : Int) < count.signed ∧
    count.signed ≤ (exchange.nextBatch : Int)

def Invited (exchange : Exchange) (roomId : RoomId) : Prop :=
  roomId ∈ exchange.server.allInvitedRooms exchange.senderUser

def Noticed (exchange : Exchange) (connections : SnakeConnections)
    (roomId : RoomId) (todo : TodoRoom) : Prop :=
  todo.roomsince = 0 ∨ exchange.server.roomReceipts exchange.senderUser roomId
      todo.roomsince ≠ [] ∨
    ((exchange.merged connections).1.extensions.accountData.enabled =
        some true ∧
      SlidingServer.changesSince
        ((exchange.server.users exchange.senderUser).accountData
          (some roomId)) todo.roomsince (some exchange.nextBatch) ≠ [])

variable {timeline : TimelinePdus}

theorem processed_room
    (listed : (exchange.todo connections).1 roomId = some todo)
    (loaded : exchange.server.loadRoom exchange.senderUser roomId
      exchange.nextBatch todo = some timeline) (heard : timeline.pdus ≠ [] ∨
      exchange.Noticed connections roomId todo) :
    (exchange.processed connections roomId).room =
      some (exchange.server.roomAnswer exchange.senderUser roomId todo
        timeline) := by
  unfold processed SlidingServer.processRoom
  simp only [listed, loaded]
  rw [if_neg]
  intro skipped
  simp only [Bool.and_eq_true, decide_eq_true_iff, List.isEmpty_iff] at skipped
  obtain ⟨⟨⟨later, noEvents⟩, noData⟩, noReceipts⟩ := skipped
  rcases heard with events | initial | receipts | ⟨enabled, changes⟩
  · exact events noEvents
  · exact later initial
  · exact receipts noReceipts
  · rw [if_pos enabled, all_some, List.isEmpty_iff] at noData
    exact changes noData

theorem loadRoom_of_room {room : Room}
    (isRoom : (exchange.processed connections roomId).room = some room) :
    ∃ todo timeline, (exchange.todo connections).1 roomId = some todo ∧
      exchange.server.loadRoom exchange.senderUser roomId
        exchange.nextBatch todo = some timeline ∧
      room = exchange.server.roomAnswer exchange.senderUser roomId todo
        timeline := by
  unfold processed SlidingServer.processRoom at isRoom
  cases listed : (exchange.todo connections).1 roomId with
  | none =>
      simp only [listed] at isRoom
      cases isRoom
  | some todo =>
      simp only [listed] at isRoom
      cases loaded : exchange.server.loadRoom exchange.senderUser roomId
          exchange.nextBatch todo with
      | none =>
          simp only [loaded] at isRoom
          cases isRoom
      | some timeline =>
          simp only [loaded] at isRoom
          obtain ⟨_, isAnswer⟩ := ite_none_left_eq_some.mp isRoom
          exact ⟨todo, timeline, rfl, loaded, (some.inj isAnswer).symm⟩

theorem loadRoom_eq_some
    (loaded : exchange.server.loadRoom exchange.senderUser roomId
      exchange.nextBatch todo = some timeline) (events : timeline.pdus ≠ []) :
    ¬ exchange.Invited roomId ∧ timeline = loadTimeline (exchange.table roomId)
        (some (.normal todo.roomsince)) (some (.normal exchange.nextBatch))
        todo.timelineLimit := by
  unfold loadRoom at loaded
  split at loaded
  · cases loaded
    exact absurd rfl events
  next invited =>
    split at loaded
    · exact ⟨invited, (some.inj loaded).symm⟩
    · cases loaded

theorem loaded_of_mem_timelineOf
    (answered : (syncEventsV5 connections exchange).2 = .ok response)
    {pdu : Pdu} (member : pdu ∈
      timelineOf roomId (syncEventsV5 connections exchange).2) :
    ∃ todo, (exchange.todo connections).1 roomId = some todo ∧
      ¬ exchange.Invited roomId ∧
      ∃ count, (count, pdu) ∈ (loadTimeline (exchange.table roomId)
        (some (.normal todo.roomsince)) (some (.normal exchange.nextBatch))
        todo.timelineLimit).pdus := by
  unfold timelineOf at member
  rw [roomOf_eq answered] at member
  cases isRoom : (exchange.processed connections roomId).room with
  | none =>
      rw [isRoom] at member
      cases member
  | some room =>
      rw [isRoom] at member
      obtain ⟨todo, timeline, listed, loaded, rfl⟩ := loadRoom_of_room isRoom
      obtain ⟨⟨count, _⟩, shown, rfl⟩ := mem_map.mp member
      have inTimeline := mem_of_mem_filter shown
      obtain ⟨uninvited, rfl⟩ :=
        loadRoom_eq_some loaded (ne_nil_of_mem inTimeline)
      exact ⟨todo, listed, uninvited, count, inTimeline⟩

/-- When the timeline has no event that the client may have already: the newer
events leave no room for the older ones, or there are none. -/
def Fresh (exchange : Exchange) (roomId : RoomId) (todo : TodoRoom) : Prop :=
  exchange.Invited roomId ∨ (∀ entry ∈ exchange.table roomId,
      (todo.roomsince : Int) < entry.1.signed →
      entry.1.signed ≤ (exchange.nextBatch : Int) →
      (exchange.request.globalsince : Int) < entry.1.signed) ∨
    todo.timelineLimit ≤ (pduStream (exchange.table roomId)
      (some (.normal exchange.request.globalsince))
      (some (.normal exchange.nextBatch))).length

/-- When a room with new events is in the response. -/
def Shown (exchange : Exchange) (connections : SnakeConnections)
    (roomId : RoomId) (todo : TodoRoom) : Prop :=
  (∀ entry ∈ exchange.table roomId, ¬ exchange.Since entry.1) ∨
    ((exchange.Invited roomId ∨
        (exchange.server.details roomId).hasShortRoomId = true) ∧
      ((¬ exchange.Invited roomId ∧ 0 < todo.timelineLimit) ∨
        exchange.Noticed connections roomId todo))

theorem since_of_mem_timelineOf (known : exchange.KnowsUpToPos connections)
    (answered : (syncEventsV5 connections exchange).2 = .ok response)
    (fresh : ∀ todo, (exchange.todo connections).1 roomId = some todo →
      exchange.Fresh roomId todo) {pdu : Pdu} (member : pdu ∈
      timelineOf roomId (syncEventsV5 connections exchange).2) :
    ∃ count, (count, pdu) ∈ exchange.table roomId ∧ exchange.Since count := by
  obtain ⟨todo, listed, uninvited, count, loaded⟩ :=
    loaded_of_mem_timelineOf answered member
  obtain ⟨inTable, _, upper⟩ := loadTimeline_sound
    (exchange.server.rooms roomId).ascending loaded
  have newer : ∀ entry ∈ (loadTimeline (exchange.table roomId)
      (some (.normal todo.roomsince)) (some (.normal exchange.nextBatch))
      todo.timelineLimit).pdus,
        (exchange.request.globalsince : Int) < entry.1.signed :=
    (loadTimeline_after_iff (exchange.server.rooms roomId).ascending
      (exchange.server.rooms roomId).small
      (todo_startsUpTo known roomId todo listed)).mpr
        ((fresh todo listed).resolve_left uninvited)
  exact ⟨count, inTable, newer _ loaded, upper⟩

/-- The response marks the room's events since the position as cut off. -/
def Marks (roomId : RoomId) (answer : Except SyncError Response) : Prop :=
  ∃ room, roomOf roomId answer = some room ∧ room.limited = true

theorem marks_of_loaded
    (answered : (syncEventsV5 connections exchange).2 = .ok response)
    (listed : (exchange.todo connections).1 roomId = some todo)
    (loaded : exchange.server.loadRoom exchange.senderUser roomId
      exchange.nextBatch todo = some timeline)
    (limited : timeline.limited = true) (heard : timeline.pdus ≠ [] ∨
      exchange.Noticed connections roomId todo) :
    Marks roomId (syncEventsV5 connections exchange).2 := by
  unfold Marks
  rw [roomOf_eq answered, processed_room listed loaded heard]
  exact ⟨_, rfl, limited⟩

theorem mem_timelineOf_of_loaded {entry : PduCount × Pdu}
    (answered : (syncEventsV5 connections exchange).2 = .ok response)
    (listed : (exchange.todo connections).1 roomId = some todo)
    (loaded : exchange.server.loadRoom exchange.senderUser roomId
      exchange.nextBatch todo = some timeline) (member : entry ∈ timeline.pdus)
    (visible : (exchange.server.users exchange.senderUser).isIgnoredPdu
      entry.2 = false) :
    entry.2 ∈ timelineOf roomId (syncEventsV5 connections exchange).2 := by
  unfold timelineOf
  rw [roomOf_eq answered,
    processed_room listed loaded (.inl (ne_nil_of_mem member))]
  refine mem_map.mpr ⟨entry, mem_filter.mpr ⟨member, ?_⟩, rfl⟩
  simp [visible]

/-- A new event is in the timeline, or the room is marked. -/
theorem delivered_or_marked (known : exchange.KnowsUpToPos connections)
    (answered : (syncEventsV5 connections exchange).2 = .ok response)
    (listed : (exchange.todo connections).1 roomId = some todo)
    (shown : exchange.Shown connections roomId todo) {entry : PduCount × Pdu}
    (inTable : entry ∈ exchange.table roomId) (since : exchange.Since entry.1)
    (visible : (exchange.server.users exchange.senderUser).isIgnoredPdu
      entry.2 = false) :
    entry.2 ∈ timelineOf roomId (syncEventsV5 connections exchange).2 ∨
      Marks roomId (syncEventsV5 connections exchange).2 := by
  obtain ⟨hasRoom, heard⟩ := shown.resolve_left
    (fun none => none entry inTable since)
  by_cases invited : exchange.Invited roomId
  · have loaded : exchange.server.loadRoom exchange.senderUser roomId
        exchange.nextBatch todo = some { pdus := [], limited := true } :=
      if_pos invited
    have noticed := heard.resolve_left (fun open' => open'.1 invited)
    exact .inr (marks_of_loaded answered listed loaded rfl (.inr noticed))
  · have loaded : exchange.server.loadRoom exchange.senderUser roomId
        exchange.nextBatch todo = some (loadTimeline (exchange.table roomId)
            (some (.normal todo.roomsince))
            (some (.normal exchange.nextBatch)) todo.timelineLimit) := by
      exact (if_neg invited).trans (if_pos (hasRoom.resolve_left invited))
    have after : After (some (.normal todo.roomsince)) entry.1 := by
      rintro _ ⟨⟩
      have le := todo_startsUpTo known roomId todo listed
      have lower := since.1
      change (todo.roomsince : Int) < entry.1.signed
      omega
    have complete : entry ∈ (loadTimeline (exchange.table roomId)
          (some (.normal todo.roomsince)) (some (.normal exchange.nextBatch))
          todo.timelineLimit).pdus ∨
        (loadTimeline (exchange.table roomId)
          (some (.normal todo.roomsince)) (some (.normal exchange.nextBatch))
          todo.timelineLimit).limited = true :=
      loadTimeline_complete (exchange.server.rooms roomId).ascending inTable
        ((exchange.server.rooms roomId).small entry inTable) after since.2
    rcases complete with member | limited
    · exact .inl (mem_timelineOf_of_loaded answered listed loaded member
        visible)
    · refine .inr (marks_of_loaded answered listed loaded limited ?_)
      rcases heard with limit | noticed
      · exact .inl (loadTimeline_pdus_ne_nil limit.2 limited)
      · exact .inr noticed

def Requests (exchange : Exchange) (connections : SnakeConnections)
    (roomId : RoomId) : Prop :=
  (∃ entry ∈ (exchange.merged connections).1.lists,
    roomId ∈ exchange.server.listedRooms exchange.senderUser entry.2) ∨
  (exchange.Subscribes connections roomId ∧
    exchange.server.isAvailable roomId = true)

theorem requests_iff : exchange.Requests connections roomId ↔
      ∃ todo, (exchange.todo connections).1 roomId = some todo := by
  rw [← isSome_iff_exists, todo_isSome, mem_merged_subscriptions]
  rfl

end Exchange

abbrev SyncEntry :=
  Library.Entry SnakeConnections Exchange (Except SyncError Response)

def sentPos (entry : SyncEntry) : Nat := entry.input.request.globalsince

def receivedPos (entry : SyncEntry) : Nat := entry.input.nextBatch

structure Conversation (key : SnakeConnectionsKey) (roomId : RoomId)
    (history : List SyncEntry) (stop : Nat) : Prop where
  chain : Library.Consecutive sentPos receivedPos 0 history stop
  connection : ∀ entry ∈ history, entry.input.snakeKey = key
  answered : ∀ entry ∈ history, ∃ response, entry.output = .ok response
  requested : ∀ entry ∈ history, entry.input.Requests entry.before roomId

/-- The events of the room, the same at every request: a redaction that takes
the content out of a stored one in between is left out. -/
structure RoomEvents (roomId : RoomId) (history : List SyncEntry) where
  events : PduTable
  distinct : ∀ first ∈ events, ∀ second ∈ events,
    first.2.eventId = second.2.eventId → first = second
  appended : ∀ entry ∈ history, ∀ event ∈ entry.input.table roomId,
    event ∈ events

structure Steady (roomId : RoomId) (events : PduTable) (entry : SyncEntry) :
    Prop where
  fresh : ∀ todo, (entry.input.todo entry.before).1 roomId = some todo →
    entry.input.Fresh roomId todo
  shown : ∀ todo, (entry.input.todo entry.before).1 roomId = some todo →
    entry.input.Shown entry.before roomId todo
  settled : ∀ event ∈ events, entry.input.Since event.1 →
    event ∈ entry.input.table roomId
  visible : ∀ event ∈ events, entry.input.Since event.1 →
    (entry.input.server.users entry.input.senderUser).isIgnoredPdu
      event.2 = false

def TimelinesDisjoint (roomId : RoomId) (history : List SyncEntry) : Prop :=
  history.Pairwise (fun first second => List.Disjoint
    (timelineOf roomId first.output) (timelineOf roomId second.output))

/-- Every event up to the last response is in a timeline, or in the range of a
response that marks the room as limited. -/
def TimelinesCover (roomId : RoomId) (events : PduTable) (stop : Nat)
    (history : List SyncEntry) : Prop :=
  ∀ event ∈ events, 0 < event.1.signed → event.1.signed ≤ (stop : Int) →
    ∃ entry ∈ history, event.2 ∈ timelineOf roomId entry.output ∨
      (entry.input.Since event.1 ∧ Exchange.Marks roomId entry.output)

section

variable {key : SnakeConnectionsKey} {roomId : RoomId}
  {history : List SyncEntry} {start connections : SnakeConnections}
  {stop : Nat}

/-- A request starts over or comes after the ones before it. -/
def InOrder (key : SnakeConnectionsKey) (earlier : List SyncEntry)
    (entry : SyncEntry) : Prop :=
  entry.input.snakeKey = key ∧ (earlier = [] → sentPos entry = 0) ∧
    ∀ other ∈ earlier, sentPos other ≤ sentPos entry

theorem Conversation.inOrder
    (conversation : Conversation key roomId history stop) :
    Library.Always (InOrder key) history := by
  intro earlier entry later split
  have before := conversation.chain.before split
  refine ⟨conversation.connection entry ?_, ?_, ?_⟩
  · rw [split]
    exact mem_append_right earlier mem_cons_self
  · rintro rfl
    exact before.eq_of_nil
  · intro other member
    exact before.lower_le_stop member

theorem knownUpTo_of_reaches
    (reaches : Library.Reaches syncEventsV5 start history connections)
    (inOrder : Library.Always (InOrder key) history) {bound : Nat}
    (begun : history ≠ [])
    (bounded : ∀ entry ∈ history, sentPos entry ≤ bound) :
    KnownUpTo bound key connections := by
  refine reaches.invariant (fun history connections => ∀ bound,
    history ≠ [] → (∀ entry ∈ history, sentPos entry ≤ bound) →
      KnownUpTo bound key connections) ?_ ?_ inOrder bound begun bounded
  · intro bound begun
    exact absurd rfl begun
  · intro history connections exchange known ordered bound _ bounded
    obtain ⟨sameKey, first, later⟩ := ordered
    have knows : exchange.KnowsUpToPos connections := by
      intro positive
      have begun : history ≠ [] := fun none => positive (first none)
      have bounds := known (sentPos (Library.entryOf syncEventsV5 connections
        exchange)) begun later
      rw [← sameKey] at bounds
      exact bounds
    rw [← sameKey]
    exact (Exchange.syncEventsV5_knownUpTo knows).mono
      (bounded _ (mem_append_right _ (mem_singleton_self _)))

variable {entry : SyncEntry}

theorem Conversation.knowsUpToPos
    (conversation : Conversation key roomId history stop)
    (reaches : Library.Reaches syncEventsV5 start history connections)
    (member : entry ∈ history) : entry.input.KnowsUpToPos entry.before := by
  obtain ⟨earlier, later, split⟩ := append_of_mem member
  have inOrder := conversation.inOrder
  obtain ⟨sameKey, first, ordered⟩ := inOrder earlier entry later split
  intro positive
  rw [sameKey]
  refine knownUpTo_of_reaches (reaches.entry split).1 ?_
    (fun none => positive (first none)) ordered
  rw [split] at inOrder
  exact inOrder.initial

theorem output_eq
    (reaches : Library.Reaches syncEventsV5 start history connections)
    (member : entry ∈ history) :
    entry.output = (syncEventsV5 entry.before entry.input).2 := by
  obtain ⟨earlier, later, split⟩ := append_of_mem member
  exact congrArg Library.Entry.output (reaches.entry split).2

theorem within_of_since {count : PduCount} (since : entry.input.Since count) :
    Library.Within sentPos receivedPos entry count.signed.toNat := by
  obtain ⟨lower, upper⟩ := since
  unfold Library.Within sentPos receivedPos
  omega

theorem since_of_within {count : PduCount} (positive : 0 < count.signed)
    (within : Library.Within sentPos receivedPos entry
      count.signed.toNat) : entry.input.Since count := by
  unfold Library.Within sentPos receivedPos at within
  unfold Exchange.Since
  omega

section

variable (reaches : Library.Reaches syncEventsV5 start history connections)
  (conversation : Conversation key roomId history stop)
include reaches conversation

theorem timelinesDisjoint (room : RoomEvents roomId history)
    (steady : ∀ entry ∈ history, Steady roomId room.events entry) :
    TimelinesDisjoint roomId history := by
  have delivered : ∀ entry ∈ history, ∀ pdu ∈ timelineOf roomId entry.output,
      ∃ count, (count, pdu) ∈ room.events ∧ entry.input.Since count := by
    intro entry member pdu inTimeline
    obtain ⟨response, answered⟩ := conversation.answered entry member
    rw [output_eq reaches member] at answered inTimeline
    obtain ⟨count, inTable, since⟩ := Exchange.since_of_mem_timelineOf
      (conversation.knowsUpToPos reaches member) answered
      (steady entry member).fresh inTimeline
    exact ⟨count, room.appended entry member _ inTable, since⟩
  unfold TimelinesDisjoint
  rw [pairwise_iff_getElem]
  intro first second isFirst isSecond before pdu inFirst inSecond
  obtain ⟨count, listed, since⟩ := delivered _ (getElem_mem isFirst) pdu inFirst
  obtain ⟨again, relisted, sinceAgain⟩ :=
    delivered _ (getElem_mem isSecond) pdu inSecond
  have same : again = count :=
    congrArg Prod.fst (room.distinct _ relisted _ listed rfl)
  rw [same] at sinceAgain
  have sameIndex := conversation.chain.within_unique
    (List.getElem?_eq_getElem isFirst) (List.getElem?_eq_getElem isSecond)
    (within_of_since since) (within_of_since sinceAgain)
  omega

theorem timelinesCover {events : PduTable}
    (steady : ∀ entry ∈ history, Steady roomId events entry) :
    TimelinesCover roomId events stop history := by
  intro event listed positive upper
  obtain ⟨entry, member, within⟩ := conversation.chain.exists_within
    (show 0 < event.1.signed.toNat by omega)
    (show event.1.signed.toNat ≤ stop by omega)
  have since := since_of_within positive within
  obtain ⟨response, answered⟩ := conversation.answered entry member
  obtain ⟨todo, isTodo⟩ :=
    Exchange.requests_iff.mp (conversation.requested entry member)
  have isStep := output_eq reaches member
  rw [isStep] at answered
  refine ⟨entry, member, ?_⟩
  rw [isStep]
  have answer := Exchange.delivered_or_marked
    (conversation.knowsUpToPos reaches member) answered isTodo
    ((steady entry member).shown todo isTodo)
    ((steady entry member).settled event listed since) since
    ((steady entry member).visible event listed since)
  exact answer.imp_right (fun marks => ⟨since, marks⟩)

end

/-- In a conversation whose requests are steady, the timelines of a room are
disjoint and leave out nothing that is not marked. -/
theorem slidingSync_progress
    (reaches : Library.Reaches syncEventsV5 start history connections)
    (conversation : Conversation key roomId history stop)
    (room : RoomEvents roomId history)
    (steady : ∀ entry ∈ history, Steady roomId room.events entry) :
    TimelinesDisjoint roomId history ∧
      TimelinesCover roomId room.events stop history :=
  ⟨timelinesDisjoint reaches conversation room steady,
    timelinesCover reaches conversation steady⟩

end

def listing (pos : Option Nat) (timelineLimit : Nat) : Request where
  pos := pos
  connId := some "main"
  txnId := none
  lists := [("all",
    { ranges := [(0, 9)]
      timelineLimit := timelineLimit
      requiredState := []
      includeHeroes := none
      filters := none })]
  roomSubscriptions := ∅
  extensions := .default

def listingExchange (pos : Option Nat) (timelineLimit nextBatch : Nat)
    (server : SlidingServer) : Exchange where
  senderUser := "@alice:h"
  senderDevice := "PHONE"
  request := listing pos timelineLimit
  nextBatch := nextBatch
  server := server
  afterWait := server

def listedServer (room : RoomSnapshot) : SlidingServer :=
  { aliceServer room with rooms := fun _ => room }

def aliceKey : SnakeConnectionsKey := ("@alice:h", "PHONE", some "main")

def twoRequests (timelineLimit nextBatch : Nat)
    (before after : RoomSnapshot) : List SyncEntry :=
  (Library.run syncEventsV5 (fun _ => none)
    [listingExchange none timelineLimit 3 (listedServer before),
      listingExchange (some 3) timelineLimit nextBatch (listedServer after)]).1

theorem twoRequests_conversation {timelineLimit nextBatch : Nat}
    (later : 3 ≤ nextBatch) (before after : RoomSnapshot) :
    Conversation aliceKey "!r:h"
      (twoRequests timelineLimit nextBatch before after) nextBatch where
  chain := (Library.Consecutive.nil.snoc
    (Library.entryOf syncEventsV5 (fun _ => none)
      (listingExchange none timelineLimit 3 (listedServer before)))
    rfl (Nat.zero_le 3)).snoc
    (Library.entryOf syncEventsV5 _
      (listingExchange (some 3) timelineLimit nextBatch
        (listedServer after))) rfl later
  connection := by
    intro entry member
    rcases mem_pair.mp member with rfl | rfl
    · rfl
    · rfl
  answered := by
    intro entry member
    rcases mem_pair.mp member with rfl | rfl
    · exact ⟨_, rfl⟩
    · exact ⟨_, rfl⟩
  requested := by
    intro entry member
    rcases mem_pair.mp member with rfl | rfl
    · exact .inl ⟨_, mem_cons_self, mem_cons_self⟩
    · exact .inl ⟨_, mem_cons_self, mem_cons_self⟩

/-- The second response repeats the first one. -/
theorem quietRoom_repeats :
    Conversation aliceKey "!r:h" (twoRequests 10 4 writtenRoom writtenRoom)
        4 ∧
      ¬ TimelinesDisjoint "!r:h"
        (twoRequests 10 4 writtenRoom writtenRoom) := by
  refine ⟨twoRequests_conversation (by decide) writtenRoom writtenRoom, ?_⟩
  intro disjoint
  have apart := (pairwise_cons.mp disjoint).1 _ mem_cons_self
  exact apart (show createdPdu ∈ _ from mem_cons_self)
    (show createdPdu ∈ _ from mem_cons_self)

def busyRoom : RoomSnapshot := storedRoom
    [(.normal 1, createdPdu), (.normal 2, writtenPdu "$hello" ["$create"]),
      (.normal 4, writtenPdu "$again" ["$hello"])]
    unnamedState (fun _ => none) (by unfold Ascending; decide) (by decide)

def busyEvents :
    RoomEvents "!r:h" (twoRequests 1 5 writtenRoom busyRoom) where
  events := busyRoom.table
  distinct := by
    intro first isFirst second isSecond same
    simp only [busyRoom, storedRoom, List.mem_cons, List.not_mem_nil,
      or_false] at isFirst isSecond
    rcases isFirst with rfl | rfl | rfl <;>
      rcases isSecond with rfl | rfl | rfl <;>
      first | rfl | exact absurd same (by decide)
  appended := by
    intro entry member event inTable
    rcases List.mem_pair.mp member with rfl | rfl
    · exact List.mem_of_mem_take (show event ∈ busyRoom.table.take 2 from
        inTable)
    · exact inTable

/-- One event a request fits the limit. -/
theorem busyRoom_progress :
    TimelinesDisjoint "!r:h" (twoRequests 1 5 writtenRoom busyRoom) ∧
      TimelinesCover "!r:h" busyRoom.table 5
        (twoRequests 1 5 writtenRoom busyRoom) := by
  refine slidingSync_progress (Library.reaches_run syncEventsV5
      (fun _ => none) [listingExchange none 1 3 (listedServer writtenRoom),
        listingExchange (some 3) 1 5 (listedServer busyRoom)])
    (twoRequests_conversation (by decide) writtenRoom busyRoom) busyEvents ?_
  intro entry member
  rcases mem_pair.mp member with rfl | rfl
  · constructor
    · rintro todo ⟨⟩
      exact .inr (.inl fun _ _ later _ => later)
    · rintro todo ⟨⟩
      exact .inr ⟨.inr rfl, .inl ⟨not_mem_nil, by decide⟩⟩
    · intro event listed since
      have cases : event ∈ busyRoom.table := listed
      simp only [busyRoom, storedRoom, mem_cons, not_mem_nil, or_false] at cases
      rcases cases with rfl | rfl | rfl
      · exact mem_cons_self
      · exact mem_cons_of_mem _ mem_cons_self
      · exact absurd since.2 (by decide)
    · intro event listed since
      rfl
  · constructor
    · rintro todo ⟨⟩
      exact .inr (.inr (by decide))
    · rintro todo ⟨⟩
      exact .inr ⟨.inr rfl, .inl ⟨not_mem_nil, by decide⟩⟩
    · intro event listed since
      exact listed
    · intro event listed since
      rfl

end ArcanaServer.Sync
