import ArcanaServer.Library.Settles
import ArcanaServer.Sync.Connections

namespace ArcanaServer.Sync

open ArcanaServer.Matrix
open Users (DeviceId)
open Library List Library.Entry

/-! Which rooms a sliding sync response is about. -/

namespace SlidingServer

def Member (server : SlidingServer) (userId : UserId) (roomId : RoomId) :
    Prop :=
  roomId ∈ server.roomsJoined userId ∨
    roomId ∈ (server.users userId).roomsInvited ∨
    roomId ∈ (server.users userId).roomsKnocked

variable {server : SlidingServer} {senderUser : UserId} {roomId : RoomId}

theorem mem_of_mem_sliceRange {rooms : List RoomId} {range : Nat × Nat}
    (member : roomId ∈ sliceRange rooms range) : roomId ∈ rooms :=
  mem_of_mem_drop (mem_of_mem_take member)

theorem member_of_mem_allInvitedRooms
    (member : roomId ∈ server.allInvitedRooms senderUser) :
    server.Member senderUser roomId :=
  .inr (.inl (mem_of_mem_filter member))

theorem member_of_mem_allRooms (member : roomId ∈ server.allRooms senderUser) :
    server.Member senderUser roomId := by
  unfold allRooms at member
  rw [mem_append, mem_append] at member
  rcases member with (joined | invited) | knocked
  · exact .inl joined
  · exact member_of_mem_allInvitedRooms invited
  · exact .inr (.inr knocked)

section

variable (server : SlidingServer) (senderUser : UserId)
  (filters : Option ListFilters)

def candidateRooms : List RoomId :=
  match filters.bind (·.isInvite) with
  | none => server.allRooms senderUser
  | some true => server.allInvitedRooms senderUser
  | some false => server.roomsJoined senderUser

theorem activeRooms_eq :
    server.activeRooms senderUser filters =
      match filters.map (·.notRoomTypes) with
      | none => server.candidateRooms senderUser filters
      | some [] => server.candidateRooms senderUser filters
      | some filter =>
          server.filterRooms filter
            (server.candidateRooms senderUser filters) :=
  rfl

end

theorem member_of_mem_candidateRooms {filters : Option ListFilters}
    (member : roomId ∈ server.candidateRooms senderUser filters) :
    server.Member senderUser roomId := by
  unfold candidateRooms at member
  split at member
  · exact member_of_mem_allRooms member
  · exact member_of_mem_allInvitedRooms member
  · exact .inl member

theorem member_of_mem_activeRooms {filters : Option ListFilters}
    (member : roomId ∈ server.activeRooms senderUser filters) :
    server.Member senderUser roomId := by
  rw [activeRooms_eq] at member
  split at member
  · exact member_of_mem_candidateRooms member
  · exact member_of_mem_candidateRooms member
  · exact member_of_mem_candidateRooms (mem_of_mem_filter member)

theorem member_of_mem_listedRooms {list : RequestList}
    (member : roomId ∈ server.listedRooms senderUser list) :
    server.Member senderUser roomId := by
  obtain ⟨range, _, inRange⟩ := mem_flatMap.mp member
  exact member_of_mem_activeRooms (mem_of_mem_sliceRange inRange)

theorem addRoom_isSome {requiredState : List TypeStateKey} {limit : Nat}
    {known : RoomId → Option Nat} (todoRooms : TodoRooms) (added : RoomId) :
    (server.addRoom requiredState limit known todoRooms added
        roomId).isSome = true ↔
      (todoRooms roomId).isSome = true ∨ roomId = added := by
  unfold addRoom
  rcases Decidable.em (roomId = added) with same | differs
  · simp [same]
  · simp [differs]

theorem addList_isSome {knownRooms : KnownRooms} (todoRooms : TodoRooms)
    (entry : ListId × RequestList) :
    (server.addList senderUser knownRooms todoRooms entry
        roomId).isSome = true ↔
      (todoRooms roomId).isSome = true ∨
        roomId ∈ server.listedRooms senderUser entry.2 := by
  unfold addList
  rw [foldl_iff
    (fun todoRooms : TodoRooms => (todoRooms roomId).isSome = true) _
    addRoom_isSome]
  simp

theorem addSubscription_isSome {knownRooms : KnownRooms}
    (todoRooms : TodoRooms) (entry : Σ _ : RoomId, RoomSubscription) :
    (server.addSubscription knownRooms todoRooms entry roomId).isSome = true ↔
      (todoRooms roomId).isSome = true ∨ roomId = entry.1 :=
  addRoom_isSome todoRooms entry.1

end SlidingServer

namespace Exchange

variable {exchange : Exchange} {connections : SnakeConnections}
  {roomId : RoomId}

theorem todo_eq (exchange : Exchange) (connections : SnakeConnections) :
    exchange.todo connections =
      let lists := exchange.server.handleLists exchange.senderUser
        exchange.senderDevice (exchange.merged connections).1
        (exchange.merged connections).2.1 (exchange.merged connections).2.2
      exchange.server.fetchSubscriptions exchange.senderUser
        exchange.senderDevice (exchange.merged connections).1
        (exchange.merged connections).2.1 lists.1 lists.2 :=
  rfl

theorem todo_isSome : ((exchange.todo connections).1 roomId).isSome = true ↔
      (∃ entry ∈ (exchange.merged connections).1.lists,
        roomId ∈ exchange.server.listedRooms exchange.senderUser entry.2) ∨
      (roomId ∈ (exchange.merged connections).1.roomSubscriptions ∧
        exchange.server.isAvailable roomId = true) := by
  unfold todo SlidingServer.fetchSubscriptions SlidingServer.handleLists
  simp only
  rw [foldl_iff
      (fun todoRooms : TodoRooms => (todoRooms roomId).isSome = true) _
      SlidingServer.addSubscription_isSome,
    foldl_iff (fun todoRooms : TodoRooms => (todoRooms roomId).isSome = true) _
      SlidingServer.addList_isSome]
  refine or_congr ?_ ?_
  · simp
  · unfold SlidingServer.subscribedRooms
    constructor
    · rintro ⟨entry, member, rfl⟩
      obtain ⟨listed, available⟩ := mem_filter.mp member
      exact ⟨AList.mem_keys.mpr (mem_keys_of_mem listed), available⟩
    · rintro ⟨member, available⟩
      obtain ⟨subscription, listed⟩ :=
        exists_of_mem_keys (AList.mem_keys.mp member)
      exact ⟨_, mem_filter.mpr ⟨listed, available⟩, rfl⟩

def Subscribes (exchange : Exchange) (connections : SnakeConnections)
    (roomId : RoomId) : Prop :=
  roomId ∈ exchange.request.roomSubscriptions ∨
    (exchange.request.globalsince ≠ 0 ∧
      ∃ cache, connections exchange.snakeKey = some cache ∧
        roomId ∈ cache.subscriptions)

/-- The user is a member of the rooms that it subscribes to, as far as the
server has them. -/
def Guarded (connections : SnakeConnections) (exchange : Exchange) : Prop :=
  ∀ roomId, exchange.Subscribes connections roomId →
    exchange.server.isAvailable roomId = true →
    exchange.server.Member exchange.senderUser roomId

theorem mem_merged_subscriptions :
    roomId ∈ (exchange.merged connections).1.roomSubscriptions ↔
      exchange.Subscribes connections roomId := by
  unfold merged SnakeConnections.updateSnakeSyncRequestWithCache
    SnakeSyncCache.updateRequest Subscribes
  simp only [AList.mem_union]
  have remembered : roomId ∈ ((exchange.started connections).cached
      exchange.snakeKey).subscriptions ↔ exchange.request.globalsince ≠ 0 ∧
          ∃ cache, connections exchange.snakeKey = some cache ∧
            roomId ∈ cache.subscriptions := by
    unfold started SnakeConnections.cached
    split
    next fromStart =>
      simp [SnakeConnections.forgetSnakeSyncConnection, fromStart,
        SnakeSyncCache.default]
    next later =>
      cases connections exchange.snakeKey with
      | none => simp [SnakeSyncCache.default]
      | some cache => simp [later]
  rw [remembered, or_right_comm, or_self]

theorem member_of_todo (guarded : exchange.Guarded connections)
    (listed : ((exchange.todo connections).1 roomId).isSome = true) :
    exchange.server.Member exchange.senderUser roomId := by
  rcases todo_isSome.mp listed with ⟨entry, _, inList⟩ | ⟨inRequest, available⟩
  · exact SlidingServer.member_of_mem_listedRooms inList
  · exact guarded roomId (mem_merged_subscriptions.mp inRequest) available

theorem processed_eq_of_none
    (unlisted : (exchange.todo connections).1 roomId = none) :
    exchange.processed connections roomId =
      { accountData := exchange.server.collectAccountData
          exchange.senderUser (exchange.merged connections).1 roomId
        receipts := []
        room := none } := by
  unfold processed
  simp only [unlisted]

end Exchange

namespace Response

def Carries (response : Response) (roomId : RoomId) : Prop :=
  (∃ room, response.rooms roomId = some room ∧
    (room.timeline ≠ [] ∨ room.requiredState ≠ [])) ∨
  response.receipts roomId ≠ none ∨ response.typing roomId ≠ none

end Response

namespace Exchange

variable {exchange : Exchange} {connections : SnakeConnections}
  {roomId : RoomId}

theorem todo_isSome_of_carries {e2ee : E2EE}
    (carries : (exchange.response connections e2ee).Carries roomId) :
    ((exchange.todo connections).1 roomId).isSome = true := by
  cases listed : (exchange.todo connections).1 roomId with
  | some todo => rfl
  | none =>
      have nothing := processed_eq_of_none listed
      rcases carries with ⟨room, isRoom, _⟩ | receipts | typing
      · unfold response at isRoom
        simp only [nothing] at isRoom
        cases isRoom
      · unfold response at receipts
        simp [nothing] at receipts
      · unfold response at typing
        simp [SlidingServer.collectTypingEvents, listed] at typing

/-- The answer carries rooms of the user only. -/
def Confined (exchange : Exchange) : Except SyncError Response → Prop
  | .error _ => True
  | .ok response => ∀ roomId, response.Carries roomId →
      exchange.server.Member exchange.senderUser roomId

theorem confined_of_guarded (guarded : exchange.Guarded connections) :
    exchange.Confined (syncEventsV5 connections exchange).2 := by
  unfold syncEventsV5
  split
  · trivial
  · simp only
    split
    · trivial
    · intro roomId carries
      exact member_of_todo guarded (todo_isSome_of_carries carries)

end Exchange

namespace SlidingServer

/-- The servers differ in what they have of one room only.  The membership
tables are those of the user, and of others outside the room. -/
structure AgreesOutside (senderUser : UserId) (hidden : RoomId)
    (server twin : SlidingServer) : Prop where
  ruma : server.ruma = twin.ruma
  keyLe : server.keyLe = twin.keyLe
  users : server.users = twin.users
  keychangeidUserid : server.keychangeidUserid = twin.keychangeidUserid
  rooms : ∀ roomId, roomId ≠ hidden → server.rooms roomId = twin.rooms roomId
  details : ∀ roomId, roomId ≠ hidden →
    server.details roomId = twin.details roomId
  joined : server.roomsJoined senderUser = twin.roomsJoined senderUser
  others : ∀ userId roomId, roomId ≠ hidden →
    (roomId ∈ server.roomsJoined userId ↔ roomId ∈ twin.roomsJoined userId)

namespace AgreesOutside

variable {server twin : SlidingServer} {senderUser : UserId}
  {senderDevice : DeviceId} {hidden roomId : RoomId}

section

variable (agrees : server.AgreesOutside senderUser hidden twin)
include agrees

theorem member :
    server.Member senderUser roomId ↔ twin.Member senderUser roomId := by
  unfold Member
  rw [agrees.joined, agrees.users]

theorem allInvitedRooms :
    server.allInvitedRooms senderUser = twin.allInvitedRooms senderUser := by
  unfold SlidingServer.allInvitedRooms
  rw [agrees.users]

theorem candidateRooms (filters : Option ListFilters) :
    server.candidateRooms senderUser filters =
      twin.candidateRooms senderUser filters := by
  unfold SlidingServer.candidateRooms allRooms
  rw [agrees.allInvitedRooms, agrees.joined, agrees.users]

theorem filterRooms (filter : List (Option String)) {rooms : List RoomId}
    (outside : hidden ∉ rooms) :
    server.filterRooms filter rooms = twin.filterRooms filter rooms := by
  unfold SlidingServer.filterRooms
  refine filter_congr fun roomId member => ?_
  rw [agrees.details roomId (ne_of_mem_of_not_mem member outside)]

theorem activeRooms (outside : ¬ server.Member senderUser hidden)
    (filters : Option ListFilters) :
    server.activeRooms senderUser filters =
      twin.activeRooms senderUser filters := by
  have absent : hidden ∉ server.candidateRooms senderUser filters :=
    fun member => outside (member_of_mem_candidateRooms member)
  rw [activeRooms_eq, activeRooms_eq, ← agrees.candidateRooms]
  split
  · rfl
  · rfl
  · exact agrees.filterRooms _ absent

theorem listedRooms (outside : ¬ server.Member senderUser hidden)
    (list : RequestList) :
    server.listedRooms senderUser list = twin.listedRooms senderUser list := by
  unfold SlidingServer.listedRooms
  rw [agrees.activeRooms outside]

theorem addRoom : server.addRoom = twin.addRoom := by
  funext requiredState limit known todoRooms roomId
  unfold SlidingServer.addRoom
  rw [agrees.keyLe]

theorem handleLists (outside : ¬ server.Member senderUser hidden)
    (body : Request) :
    server.handleLists senderUser senderDevice body =
      twin.handleLists senderUser senderDevice body := by
  have lists : server.listedRooms senderUser =
      twin.listedRooms senderUser := funext (agrees.listedRooms outside)
  unfold SlidingServer.handleLists SlidingServer.addList
  rw [lists, agrees.addRoom]

theorem isAvailable (differs : roomId ≠ hidden) :
    server.isAvailable roomId = twin.isAvailable roomId := by
  unfold SlidingServer.isAvailable
  rw [agrees.rooms roomId differs, agrees.details roomId differs]

theorem fetchSubscriptions {body : Request}
    (unavailable : hidden ∈ body.roomSubscriptions →
      server.isAvailable hidden = false ∧ twin.isAvailable hidden = false) :
    server.fetchSubscriptions senderUser senderDevice body =
      twin.fetchSubscriptions senderUser senderDevice body := by
  have rooms : server.subscribedRooms body = twin.subscribedRooms body := by
    unfold subscribedRooms
    refine filter_congr fun entry listed => ?_
    rcases Decidable.em (entry.1 = hidden) with same | differs
    · have inBody : hidden ∈ body.roomSubscriptions :=
        same ▸ AList.mem_keys.mpr (mem_keys_of_mem listed)
      rw [same, (unavailable inBody).1, (unavailable inBody).2]
    · exact agrees.isAvailable differs
  unfold SlidingServer.fetchSubscriptions addSubscription
  rw [rooms, agrees.addRoom]

theorem processRoom (differs : roomId ≠ hidden) (nextBatch : Nat)
    (body : Request) (collected : Option (List Json)) (todo : TodoRoom) :
    server.processRoom senderUser nextBatch body collected roomId todo =
      twin.processRoom senderUser nextBatch body collected roomId todo := by
  unfold SlidingServer.processRoom loadRoom roomReceipts roomAnswer
    collectRequiredState
  rw [agrees.allInvitedRooms, agrees.users, agrees.rooms roomId differs,
    agrees.details roomId differs]

theorem collectTypingEvents (body : Request) {todoRooms : TodoRooms}
    (unlisted : todoRooms hidden = none) :
    server.collectTypingEvents senderUser body todoRooms =
      twin.collectTypingEvents senderUser body todoRooms := by
  funext roomId
  unfold SlidingServer.collectTypingEvents
  rcases Decidable.em (roomId = hidden) with same | differs
  · simp [same, unlisted]
  · rw [agrees.details roomId differs, agrees.users]

section

variable (apart : hidden ∉ server.roomsJoined senderUser)
include apart

theorem shareEncryptedRoom (userId : UserId) (ignoreRoom : Option RoomId) :
    server.shareEncryptedRoom senderUser userId ignoreRoom =
      twin.shareEncryptedRoom senderUser userId ignoreRoom := by
  have shared : server.getSharedRooms senderUser userId =
      twin.getSharedRooms senderUser userId := by
    unfold ServerSnapshot.getSharedRooms
    rw [← agrees.joined]
    refine filter_congr fun roomId member => ?_
    rw [decide_eq_decide]
    exact agrees.others userId roomId (ne_of_mem_of_not_mem member apart)
  unfold ServerSnapshot.shareEncryptedRoom
  rw [← shared, Bool.eq_iff_iff, any_eq_true, any_eq_true]
  refine exists_congr fun roomId => and_congr_right fun member => ?_
  have mine : roomId ∈ server.roomsJoined senderUser :=
    mem_of_mem_filter (mem_of_mem_filter member)
  rw [agrees.rooms roomId (ne_of_mem_of_not_mem mine apart)]

theorem noteChangedMember :
    server.noteChangedMember senderUser roomId =
      twin.noteChangedMember senderUser roomId := by
  funext changes pdu
  unfold SlidingServer.noteChangedMember otherMember
  simp only [agrees.ruma, agrees.shareEncryptedRoom apart]

theorem newlyShared (differs : roomId ≠ hidden) :
    server.newlyShared senderUser roomId =
      twin.newlyShared senderUser roomId := by
  unfold SlidingServer.newlyShared
  simp only [agrees.shareEncryptedRoom apart, agrees.details roomId differs]

theorem noteRoom (differs : roomId ≠ hidden) (globalsince : Nat)
    (changes : DeviceChanges) :
    server.noteRoom senderUser globalsince changes roomId =
      twin.noteRoom senderUser globalsince changes roomId := by
  unfold SlidingServer.noteRoom noteKeyChanges noteEncryptedRoom
  rw [agrees.rooms roomId differs, agrees.ruma,
    agrees.noteChangedMember apart, agrees.newlyShared apart differs]

theorem collectE2ee (body : Request) :
    server.collectE2ee senderUser senderDevice body =
      twin.collectE2ee senderUser senderDevice body := by
  have rooms : ∀ changes, (twin.roomsJoined senderUser).foldlM
          (server.noteRoom senderUser body.globalsince) changes =
        (twin.roomsJoined senderUser).foldlM
          (twin.noteRoom senderUser body.globalsince) changes := by
    intro changes
    rw [← agrees.joined]
    refine foldlM_congr _ changes fun changes roomId member => ?_
    exact agrees.noteRoom apart (ne_of_mem_of_not_mem member apart) _ changes
  unfold SlidingServer.collectE2ee
  simp only [agrees.joined, rooms, agrees.users, agrees.keychangeidUserid,
    agrees.shareEncryptedRoom apart]

end

end

end AgreesOutside

end SlidingServer

namespace Exchange

/-- The same request to servers that differ in a room of which the user is no
member. -/
structure Twin (hidden : RoomId) (exchange twin : Exchange) : Prop where
  senderUser : exchange.senderUser = twin.senderUser
  senderDevice : exchange.senderDevice = twin.senderDevice
  request : exchange.request = twin.request
  nextBatch : exchange.nextBatch = twin.nextBatch
  server : exchange.server.AgreesOutside exchange.senderUser hidden twin.server
  afterWait : exchange.afterWait.AgreesOutside exchange.senderUser hidden
    twin.afterWait
  outside : ¬ exchange.server.Member exchange.senderUser hidden

namespace Twin

variable {hidden : RoomId} {exchange twin : Exchange}
  {connections : SnakeConnections}

theorem merged (twins : Twin hidden exchange twin) :
    exchange.merged connections = twin.merged connections := by
  unfold Exchange.merged started snakeKey
  rw [twins.request, twins.senderUser, twins.senderDevice]

theorem member (twins : Twin hidden exchange twin) {roomId : RoomId} :
    exchange.server.Member exchange.senderUser roomId ↔
      twin.server.Member twin.senderUser roomId := by
  rw [← twins.senderUser]
  exact twins.server.member

section

variable (twins : Twin hidden exchange twin)
  (guarded : exchange.Guarded connections)
  (twinGuarded : twin.Guarded connections)
include twins guarded twinGuarded

theorem unavailable (subscribed : hidden ∈
      (exchange.merged connections).1.roomSubscriptions) :
    exchange.server.isAvailable hidden = false ∧
      twin.server.isAvailable hidden = false := by
  have inTwin : hidden ∈ (twin.merged connections).1.roomSubscriptions := by
    rw [← twins.merged]
    exact subscribed
  constructor
  · rw [Bool.eq_false_iff]
    intro available
    exact twins.outside (guarded hidden
      (mem_merged_subscriptions.mp subscribed) available)
  · rw [Bool.eq_false_iff]
    intro available
    exact twins.outside (twins.member.mpr (twinGuarded hidden
      (mem_merged_subscriptions.mp inTwin) available))

theorem todo : exchange.todo connections = twin.todo connections := by
  rw [todo_eq, todo_eq, ← twins.merged, ← twins.senderUser,
    ← twins.senderDevice, twins.server.handleLists twins.outside,
    twins.server.fetchSubscriptions (twins.unavailable guarded twinGuarded)]

theorem processed :
    exchange.processed connections = twin.processed connections := by
  funext roomId
  unfold Exchange.processed SlidingServer.collectAccountData
  rw [← twins.todo guarded twinGuarded, ← twins.merged, ← twins.senderUser,
    ← twins.nextBatch, twins.server.users]
  cases listed : (exchange.todo connections).1 roomId with
  | none => rfl
  | some todo =>
      have isMember := member_of_todo guarded (Option.isSome_of_eq_some listed)
      have differs : roomId ≠ hidden := by
        rintro rfl
        exact twins.outside isMember
      exact twins.server.processRoom differs _ _ _ todo

theorem response (e2ee : E2EE) :
    exchange.response connections e2ee = twin.response connections e2ee := by
  have unlisted : (exchange.todo connections).1 hidden = none := by
    rw [← Option.not_isSome_iff_eq_none]
    exact fun listed => twins.outside (member_of_todo guarded listed)
  have typing : exchange.afterWait.collectTypingEvents exchange.senderUser
      (exchange.merged connections).1 (exchange.todo connections).1 = _ :=
    twins.afterWait.collectTypingEvents _ unlisted
  have active : exchange.server.activeRooms exchange.senderUser = _ :=
    funext (twins.server.activeRooms twins.outside)
  unfold Exchange.response SlidingServer.collectGlobalAccountData
    SlidingServer.collectToDevice
  simp only
  rw [typing, active, twins.processed guarded twinGuarded,
    twins.todo guarded twinGuarded, twins.merged, twins.senderUser,
    twins.senderDevice, twins.nextBatch, twins.server.users]

theorem syncEventsV5_eq :
    syncEventsV5 connections exchange = syncEventsV5 connections twin := by
  have apart : hidden ∉ exchange.server.roomsJoined exchange.senderUser :=
    fun joined => twins.outside (.inl joined)
  have answer : exchange.response connections = twin.response connections :=
    funext (twins.response guarded twinGuarded)
  unfold syncEventsV5 snakeKey
  simp only [twins.server.collectE2ee apart]
  rw [twins.todo guarded twinGuarded, answer, twins.merged, twins.request,
    twins.senderUser, twins.senderDevice]

end

end Twin

end Exchange

/-- While every subscription is guarded, each response is confined to the rooms
of its user, and does not depend on any other room. -/
theorem slidingSync_confidential (connections : SnakeConnections)
    (exchanges : List Exchange)
    (guarded : ∀ entry ∈ (run syncEventsV5 connections exchanges).1,
      entry.input.Guarded entry.before) :
    (∀ entry ∈ (run syncEventsV5 connections exchanges).1,
      entry.input.Confined entry.output) ∧
    ∀ (hidden : RoomId) (twins : List Exchange),
      List.Forall₂ (Exchange.Twin hidden) exchanges twins →
      (∀ entry ∈ (run syncEventsV5 connections twins).1,
        entry.input.Guarded entry.before) →
      (run syncEventsV5 connections exchanges).1.map output =
        (run syncEventsV5 connections twins).1.map output := by
  constructor
  · intro entry member
    obtain ⟨before, after, split⟩ := append_of_mem member
    have isStep := (reaches_run syncEventsV5 connections exchanges).entry split
    have confined := Exchange.confined_of_guarded (guarded entry member)
    rw [isStep.2]
    exact confined
  · intro hidden twins pairs twinsGuarded
    exact run_outputs_eq
      (fun state exchange twin pair => pair.syncEventsV5_eq) pairs connections
      guarded twinsGuarded

def plainDetails : RoomDetails where
  hasShortRoomId := true
  isDisabled := false
  isBanned := false
  roomType := some none
  readReceipts := []
  privateRead := fun _ => none
  lastTypingUpdate := 0
  typingUsers := []
  members := []
  getMember := fun _ => none
  name := none
  avatarUrl := none
  joinedCount := none
  invitedCount := none

def plainUser : UserData where
  roomsInvited := []
  isIgnoredInvite := fun _ => false
  roomsKnocked := []
  inviteState := fun _ => none
  accountData := fun _ => []
  lastPrivatereadUpdate := fun _ => 0
  highlightCount := fun _ => 0
  notificationCount := fun _ => 0
  userIsIgnored := fun _ => false
  isIgnoredPdu := fun _ => false
  toDeviceEvents := fun _ => []
  oneTimeKeys := fun _ => []

def writtenRoom : RoomSnapshot := storedRoom
    [(.normal 1, createdPdu), (.normal 2, writtenPdu "$hello" ["$create"])]
    unnamedState (fun _ => none) (by unfold Ascending; decide) (by decide)

def aliceServer (other : RoomSnapshot) : SlidingServer where
  ruma := StateRes.plainRuma
  rooms := fun roomId => if roomId = "!other:h" then other else writtenRoom
  roomsJoined := fun userId => if userId = "@alice:h" then ["!r:h"] else []
  keychangeidUserid := fun _ => []
  details := fun _ => plainDetails
  users := fun _ => plainUser
  keyLe := fun _ _ => true

def subscribing (connId : Option String) : Request where
  pos := none
  connId := connId
  txnId := none
  lists := []
  roomSubscriptions := AList.singleton "!r:h"
    { requiredState := [], timelineLimit := 10 }
  extensions := .default

def exchangeOf (senderUser : UserId) (other : RoomSnapshot) : Exchange where
  senderUser := senderUser
  senderDevice := "PHONE"
  request := subscribing none
  nextBatch := 3
  server := aliceServer other
  afterWait := aliceServer other

theorem alice_guarded (other : RoomSnapshot) :
    (exchangeOf "@alice:h" other).Guarded (fun _ => none) := by
  intro roomId subscribes _
  rcases subscribes with inRequest | ⟨later, _⟩
  · have same : roomId = "!r:h" := by
      have listed := AList.mem_keys.mp inRequest
      simpa [exchangeOf, subscribing] using listed
    exact .inl (same ▸ mem_cons_self)
  · exact absurd rfl later

theorem aliceServer_agrees (first second : RoomSnapshot) :
    (aliceServer first).AgreesOutside "@alice:h" "!other:h"
      (aliceServer second) where
  ruma := rfl
  keyLe := rfl
  users := rfl
  keychangeidUserid := rfl
  rooms := by
    intro roomId differs
    simp only [aliceServer, differs, if_false]
  details := fun _ _ => rfl
  joined := rfl
  others := fun _ _ _ => Iff.rfl

theorem alice_twin (first second : RoomSnapshot) :
    Exchange.Twin "!other:h" (exchangeOf "@alice:h" first)
      (exchangeOf "@alice:h" second) where
  senderUser := rfl
  senderDevice := rfl
  request := rfl
  nextBatch := rfl
  server := aliceServer_agrees first second
  afterWait := aliceServer_agrees first second
  outside := by
    unfold SlidingServer.Member
    simp [exchangeOf, aliceServer, plainUser]

theorem member_confidential : (∀ entry ∈ (run syncEventsV5 (fun _ => none)
        [exchangeOf "@alice:h" writtenRoom]).1,
      entry.input.Confined entry.output) ∧
    (run syncEventsV5 (fun _ => none)
        [exchangeOf "@alice:h" writtenRoom]).1.map output =
      (run syncEventsV5 (fun _ => none)
        [exchangeOf "@alice:h" namedRoom]).1.map output := by
  have guarded : ∀ other, ∀ entry ∈ (run syncEventsV5
      (fun _ => none) [exchangeOf "@alice:h" other]).1,
        entry.input.Guarded entry.before := by
    intro other entry member
    rw [mem_singleton.mp member]
    exact alice_guarded other
  have confidential := slidingSync_confidential (fun _ => none)
    [exchangeOf "@alice:h" writtenRoom] (guarded writtenRoom)
  exact ⟨confidential.1, confidential.2 "!other:h" _
    (.cons (alice_twin writtenRoom namedRoom) .nil) (guarded namedRoom)⟩

theorem stranger_reads_room :
    ¬ (exchangeOf "@mallory:h" writtenRoom).Confined
      (syncEventsV5 (fun _ => none)
        (exchangeOf "@mallory:h" writtenRoom)).2 := by
  intro confined
  have member := confined "!r:h" (.inl ⟨_, rfl, .inl (by decide)⟩)
  revert member
  unfold SlidingServer.Member
  decide

end ArcanaServer.Sync
