import ArcanaServer.Sync.LoadTimeline
import Mathlib.Data.Finset.Lattice.Fold

namespace ArcanaServer.Sync

open ArcanaServer.Matrix List

structure DeviceListUpdates where
  changed : Finset UserId
  left : Finset UserId

namespace DeviceListUpdates

def new : DeviceListUpdates where
  changed := ∅
  left := ∅

def merge (updates other : DeviceListUpdates) : DeviceListUpdates where
  changed := updates.changed ∪ other.changed
  left := updates.left ∪ other.left

end DeviceListUpdates

/-- What a sync request reads of the server.  `roomsJoined` is the membership
cache, `keychangeidUserid` has the key changes of the users themselves. -/
structure ServerSnapshot where
  ruma : Ruma
  rooms : RoomId → RoomSnapshot
  roomsJoined : UserId → List RoomId
  keychangeidUserid : UserId → List (Nat × UserId)

def keysChanged (rows : List (Nat × UserId)) (start stop : Option Nat) :
    List UserId :=
  (rows.filter (fun row =>
    start.getD 0 < row.1 && stop.all (row.1 ≤ ·))).map Prod.snd

def RoomSnapshot.isEncrypted (room : RoomSnapshot) : Bool :=
  (room.stateGet room.currentState (.other "m.room.encryption") "").isSome

namespace ServerSnapshot

variable (server : ServerSnapshot)

def getSharedRooms (userA userB : UserId) : List RoomId :=
  (server.roomsJoined userA).filter
    (fun roomId => roomId ∈ server.roomsJoined userB)

def shareEncryptedRoom (senderUser userId : UserId)
    (ignoreRoom : Option RoomId) : Bool :=
  ((server.getSharedRooms senderUser userId).filter
    (fun roomId => some roomId ≠ ignoreRoom)).any
      (fun roomId => (server.rooms roomId).isEncrypted)

def memberOf (event : Pdu) : Option (UserId × MembershipState) :=
  if event.kind = .roomMember then do
    let membership ← server.ruma.roomMember event.content
    let userId ← event.stateKey.filter server.ruma.validUserId
    return (userId, membership)
  else none

variable (context : SyncContext)

def noteMember (roomId : RoomId) (joinedSinceLastSync : Bool)
    (updates : DeviceListUpdates) (stateEvent : Pdu) : DeviceListUpdates :=
  match server.memberOf stateEvent with
  | some (userId, .leave) =>
      if !server.shareEncryptedRoom context.syncingUser userId (some roomId)
      then { updates with left := insert userId updates.left }
      else updates
  | some (userId, .join) =>
      if joinedSinceLastSync ||
          server.shareEncryptedRoom context.syncingUser userId (some roomId)
      then { updates with changed := insert userId updates.changed }
      else updates
  | _ => updates

def buildDeviceListUpdates (roomId : RoomId) (stateEvents : List Pdu)
    (joinedSinceLastSync : Bool) : DeviceListUpdates :=
  let room := server.rooms roomId
  if context.lastSyncEndCount.isNone || !room.isEncrypted then .new
  else
    stateEvents.foldl (server.noteMember context roomId joinedSinceLastSync)
      { DeviceListUpdates.new with
        changed := (keysChanged room.keychangeidUserid
          context.lastSyncEndCount (some context.currentCount)).toFinset }

def roomUpdates (roomId : RoomId) : DeviceListUpdates :=
  let room := server.rooms roomId
  server.buildDeviceListUpdates context roomId
    (buildStateEvents server.ruma room context (buildTimeline room context))
    (checkJoinedSinceLastSync server.ruma room context)

def deviceLists : DeviceListUpdates :=
  let updates := (server.roomsJoined context.syncingUser).foldl
    (fun (updates : DeviceListUpdates) roomId =>
      updates.merge (server.roomUpdates context roomId)) .new
  { updates with
    changed := updates.changed ∪
      (keysChanged (server.keychangeidUserid context.syncingUser)
        context.lastSyncEndCount (some context.currentCount)).toFinset }

def SharesOther (senderUser userId : UserId) (roomId : RoomId) : Prop :=
  ∃ other ∈ server.roomsJoined senderUser,
    other ∈ server.roomsJoined userId ∧ other ≠ roomId ∧
      (server.rooms other).isEncrypted = true

def KeyChange (rows : List (Nat × UserId)) (userId : UserId) : Prop :=
  ∃ count, (count, userId) ∈ rows ∧
    context.lastSyncEndCount.getD 0 < count ∧ count ≤ context.currentCount

def InStateBlock (ruma : Ruma) (room : RoomSnapshot) (context : SyncContext)
    (event : Pdu) : Prop :=
  match context.lastSyncEndCount, lastSyncEndState room context,
    context.fullState with
  | some since, some recorded, false =>
      if takesFastPath room context since then
        event ∈ lazyMembershipEvents room context.syncingUser
          (timelineStartState room (buildTimeline room context))
          (buildTimeline room context)
          (lazilyLoadedMembers room context (buildTimeline room context))
      else
        ∃ entry ∈ room.currentState, entry ∉ recorded ∧
          entry.2 ∉ stateEventsInTimeline (buildTimeline room context) ∧
          room.nonOutlierPdu entry.2 = some event
  | _, _, _ =>
      ∃ entry ∈ timelineStartState room (buildTimeline room context),
        isRedundant ruma context.syncingUser entry.1
          (lazilyLoadedMembers room context (buildTimeline room context)) =
            false ∧
        room.getPdu entry.2 = some event

variable (roomId : RoomId) (userId : UserId)

def BlockNames (membership : MembershipState) : Prop :=
  ∃ event, InStateBlock server.ruma (server.rooms roomId) context event ∧
    server.memberOf event = some (userId, membership)

def RoomChanges : Prop :=
  KeyChange context (server.rooms roomId).keychangeidUserid userId ∨
    (server.BlockNames context roomId userId .join ∧
      (checkJoinedSinceLastSync server.ruma (server.rooms roomId)
          context = true ∨
        server.SharesOther context.syncingUser userId roomId))

def RoomLeaves : Prop :=
  server.BlockNames context roomId userId .leave ∧
    ¬ server.SharesOther context.syncingUser userId roomId

variable {server} {context : SyncContext} {roomId : RoomId} {userId : UserId}
  {since : Nat}

theorem shareEncryptedRoom_iff {senderUser : UserId} :
    server.shareEncryptedRoom senderUser userId (some roomId) = true ↔
      server.SharesOther senderUser userId roomId := by
  unfold shareEncryptedRoom getSharedRooms SharesOther
  simp only [any_eq_true, mem_filter, decide_eq_true_iff, ne_eq,
    Option.some.injEq]
  constructor
  · rintro ⟨other, ⟨⟨mine, theirs⟩, differs⟩, encrypted⟩
    exact ⟨other, mine, theirs, differs, encrypted⟩
  · rintro ⟨other, mine, theirs, differs, encrypted⟩
    exact ⟨other, ⟨⟨mine, theirs⟩, differs⟩, encrypted⟩

theorem mem_keysChanged {rows : List (Nat × UserId)} :
    userId ∈ keysChanged rows context.lastSyncEndCount
        (some context.currentCount) ↔
      KeyChange context rows userId := by
  unfold keysChanged KeyChange
  simp only [mem_map, mem_filter, Bool.and_eq_true,
    decide_eq_true_iff, Option.all_some]
  constructor
  · rintro ⟨⟨count, _⟩, ⟨member, lower, upper⟩, rfl⟩
    exact ⟨count, member, lower, upper⟩
  · rintro ⟨count, member, lower, upper⟩
    exact ⟨(count, userId), ⟨member, lower, upper⟩, rfl⟩

theorem mem_buildStateInitial {ruma : Ruma} {room : RoomSnapshot}
    {start : StateEntries} {members : Option (List UserId)} {event : Pdu} :
    event ∈ buildStateInitial ruma room context.syncingUser start members ↔
      ∃ entry ∈ start,
        isRedundant ruma context.syncingUser entry.1 members = false ∧
          room.getPdu entry.2 = some event := by
  unfold buildStateInitial
  simp only [mem_filterMap, mem_filter, Bool.not_eq_true', and_assoc]

theorem mem_buildStateIncremental {room : RoomSnapshot}
    {recorded start : StateEntries} {members : Option (List UserId)}
    {event : Pdu} :
    event ∈ buildStateIncremental room context.syncingUser (.normal since)
        recorded start room.currentState (buildTimeline room context)
        members ↔
      if takesFastPath room context since then
        event ∈ lazyMembershipEvents room context.syncingUser start
          (buildTimeline room context) members
      else
        ∃ entry ∈ room.currentState, entry ∉ recorded ∧
          entry.2 ∉ stateEventsInTimeline (buildTimeline room context) ∧
          room.nonOutlierPdu entry.2 = some event := by
  unfold buildStateIncremental takesFastPath
  split
  · rfl
  · simp only [stateAdded, mem_filterMap, mem_filter,
      decide_eq_true_iff, and_assoc]

theorem mem_buildStateEvents {ruma : Ruma} {room : RoomSnapshot} {event : Pdu} :
    event ∈ buildStateEvents ruma room context (buildTimeline room context) ↔
      InStateBlock ruma room context event := by
  unfold buildStateEvents InStateBlock
  cases context.lastSyncEndCount with
  | none => exact mem_buildStateInitial
  | some since =>
      cases lastSyncEndState room context with
      | none => exact mem_buildStateInitial
      | some recorded =>
          cases context.fullState with
          | true => exact mem_buildStateInitial
          | false => exact mem_buildStateIncremental

theorem mem_noteMember (joinedSinceLastSync : Bool)
    (updates : DeviceListUpdates) (event : Pdu) :
    (userId ∈ (server.noteMember context roomId joinedSinceLastSync updates
        event).changed ↔
      userId ∈ updates.changed ∨ (server.memberOf event = some (userId, .join) ∧
          (joinedSinceLastSync = true ∨
            server.SharesOther context.syncingUser userId roomId))) ∧
    (userId ∈ (server.noteMember context roomId joinedSinceLastSync updates
        event).left ↔
      userId ∈ updates.left ∨ (server.memberOf event = some (userId, .leave) ∧
          ¬ server.SharesOther context.syncingUser userId roomId)) := by
  unfold noteMember
  rw [← shareEncryptedRoom_iff]
  cases server.memberOf event with
  | none => simp
  | some pair =>
      obtain ⟨named, membership⟩ := pair
      cases membership with
      | join | leave =>
          simp only [Bool.or_eq_true, Bool.not_eq_true', Option.some.injEq,
            Prod.mk.injEq, and_true]
          split
          next noted =>
            simp only [Finset.mem_insert]
            grind
          next silent => grind
      | _ => simp

section

variable (incremental : context.lastSyncEndCount = some since)
include incremental

theorem roomUpdates_eq : server.roomUpdates context roomId =
      if (server.rooms roomId).isEncrypted then
        (buildStateEvents server.ruma (server.rooms roomId) context
          (buildTimeline (server.rooms roomId) context)).foldl
            (server.noteMember context roomId (checkJoinedSinceLastSync
              server.ruma (server.rooms roomId) context))
            { DeviceListUpdates.new with
              changed := (keysChanged (server.rooms roomId).keychangeidUserid
                context.lastSyncEndCount
                (some context.currentCount)).toFinset }
      else .new := by
  unfold roomUpdates buildDeviceListUpdates
  rw [incremental]
  cases encrypted : (server.rooms roomId).isEncrypted with
  | false | true => simp [encrypted]

omit incremental in
theorem blockNames_and {membership : MembershipState} {condition : Prop} :
    (∃ event ∈ buildStateEvents server.ruma (server.rooms roomId) context
        (buildTimeline (server.rooms roomId) context),
      server.memberOf event = some (userId, membership) ∧ condition) ↔
      server.BlockNames context roomId userId membership ∧ condition := by
  unfold BlockNames
  simp only [mem_buildStateEvents, ← and_assoc, exists_and_right]

theorem mem_roomUpdates_changed :
    userId ∈ (server.roomUpdates context roomId).changed ↔
      (server.rooms roomId).isEncrypted = true ∧
        server.RoomChanges context roomId userId := by
  rw [roomUpdates_eq incremental]
  split
  next encrypted =>
    rw [Library.foldl_iff
      (fun updates : DeviceListUpdates => userId ∈ updates.changed) _
      (fun updates event => (mem_noteMember _ updates event).1),
      blockNames_and]
    simp only [RoomChanges, mem_toFinset, mem_keysChanged, encrypted, true_and]
  next plain => simp [plain, DeviceListUpdates.new]

theorem mem_roomUpdates_left :
    userId ∈ (server.roomUpdates context roomId).left ↔
      (server.rooms roomId).isEncrypted = true ∧
        server.RoomLeaves context roomId userId := by
  rw [roomUpdates_eq incremental]
  split
  next encrypted =>
    rw [Library.foldl_iff
      (fun updates : DeviceListUpdates => userId ∈ updates.left) _
      (fun updates event => (mem_noteMember _ updates event).2),
      blockNames_and]
    simp only [RoomLeaves, DeviceListUpdates.new, Finset.notMem_empty,
      false_or, encrypted, true_and]
  next plain => simp [plain, DeviceListUpdates.new]

theorem mem_deviceLists_changed :
    userId ∈ (server.deviceLists context).changed ↔
      KeyChange context (server.keychangeidUserid context.syncingUser) userId ∨
        ∃ roomId ∈ server.roomsJoined context.syncingUser,
          (server.rooms roomId).isEncrypted = true ∧
            server.RoomChanges context roomId userId := by
  unfold deviceLists
  rw [Finset.mem_union, mem_toFinset, mem_keysChanged, Library.foldl_iff
      (fun updates : DeviceListUpdates => userId ∈ updates.changed)
      (fun roomId => userId ∈ (server.roomUpdates context roomId).changed)
      (fun updates roomId => Finset.mem_union), or_comm]
  simp only [DeviceListUpdates.new, Finset.notMem_empty, false_or,
    mem_roomUpdates_changed incremental]

theorem mem_deviceLists_left : userId ∈ (server.deviceLists context).left ↔
      ∃ roomId ∈ server.roomsJoined context.syncingUser,
        (server.rooms roomId).isEncrypted = true ∧
          server.RoomLeaves context roomId userId := by
  unfold deviceLists
  rw [Library.foldl_iff
      (fun updates : DeviceListUpdates => userId ∈ updates.left)
      (fun roomId => userId ∈ (server.roomUpdates context roomId).left)
      (fun updates roomId => Finset.mem_union)]
  simp only [DeviceListUpdates.new, Finset.notMem_empty, false_or,
    mem_roomUpdates_left incremental]

end

section

variable (server : ServerSnapshot) (roomId : RoomId) (before : StateEntries)
  (userId : UserId)

def BecameJoined : Prop :=
  membershipIn server.ruma (server.rooms roomId) before userId ≠ some .join ∧
    membershipIn server.ruma (server.rooms roomId)
      (server.rooms roomId).currentState userId = some .join

def LeftSince : Prop :=
  membershipIn server.ruma (server.rooms roomId) before userId = some .join ∧
    membershipIn server.ruma (server.rooms roomId)
      (server.rooms roomId).currentState userId ≠ some .join

end

section

variable (server : ServerSnapshot) (context : SyncContext) (roomId : RoomId)

def TracksDevices (before : StateEntries) : Prop :=
  (∀ userId, userId ≠ context.syncingUser →
    server.BecameJoined roomId before userId →
    ¬ server.SharesOther context.syncingUser userId roomId →
      userId ∈ (server.deviceLists context).changed) ∧
  ∀ userId, server.LeftSince roomId before userId →
    ¬ server.SharesOther context.syncingUser userId roomId →
      userId ∈ (server.deviceLists context).left

/-- Another encrypted room has the user in its part of the response. -/
def ElsewhereChanged (userId : UserId) : Prop :=
  ∃ other ∈ server.roomsJoined context.syncingUser, other ≠ roomId ∧
    (server.rooms other).isEncrypted = true ∧
      server.RoomChanges context other userId

def ElsewhereLeft (userId : UserId) : Prop :=
  ∃ other ∈ server.roomsJoined context.syncingUser, other ≠ roomId ∧
    (server.rooms other).isEncrypted = true ∧
      server.RoomLeaves context other userId

def JoinNoticed (userId : UserId) : Prop :=
  KeyChange context (server.keychangeidUserid context.syncingUser) userId ∨
    KeyChange context (server.rooms roomId).keychangeidUserid userId ∨
    (checkJoinedSinceLastSync server.ruma (server.rooms roomId) context = true ∧
      server.BlockNames context roomId userId .join) ∨
    server.ElsewhereChanged context roomId userId

def LeaveNoticed (userId : UserId) : Prop :=
  server.BlockNames context roomId userId .leave ∨
    server.ElsewhereLeft context roomId userId

end

section

variable (incremental : context.lastSyncEndCount = some since)
  (joined : roomId ∈ server.roomsJoined context.syncingUser)
  (encrypted : (server.rooms roomId).isEncrypted = true)
  (alone : ¬ server.SharesOther context.syncingUser userId roomId)
include incremental joined encrypted alone

theorem mem_changed_iff_joinNoticed :
    userId ∈ (server.deviceLists context).changed ↔
      server.JoinNoticed context roomId userId := by
  rw [mem_deviceLists_changed incremental]
  unfold JoinNoticed
  refine or_congr_right ?_
  constructor
  · rintro ⟨other, mine, isEncrypted, changes⟩
    rcases Decidable.em (other = roomId) with same | differs
    · subst same
      rcases changes with row | named
      · exact .inl row
      · obtain ⟨inBlock, announced⟩ := named
        have newly := announced.resolve_right alone
        exact .inr (.inl ⟨newly, inBlock⟩)
    · exact .inr (.inr ⟨other, mine, differs, isEncrypted, changes⟩)
  · intro noticed
    rcases noticed with row | ⟨newly, inBlock⟩ | elsewhere
    · exact ⟨roomId, joined, encrypted, .inl row⟩
    · exact ⟨roomId, joined, encrypted, .inr ⟨inBlock, .inl newly⟩⟩
    · obtain ⟨other, mine, _, isEncrypted, changes⟩ := elsewhere
      exact ⟨other, mine, isEncrypted, changes⟩

theorem mem_left_iff_leaveNoticed : userId ∈ (server.deviceLists context).left ↔
      server.LeaveNoticed context roomId userId := by
  rw [mem_deviceLists_left incremental]
  unfold LeaveNoticed
  constructor
  · rintro ⟨other, mine, isEncrypted, leaves⟩
    rcases Decidable.em (other = roomId) with same | differs
    · subst same
      exact .inl leaves.1
    · exact .inr ⟨other, mine, differs, isEncrypted, leaves⟩
  · intro noticed
    rcases noticed with inBlock | elsewhere
    · exact ⟨roomId, joined, encrypted, inBlock, alone⟩
    · obtain ⟨other, mine, _, isEncrypted, leaves⟩ := elsewhere
      exact ⟨other, mine, isEncrypted, leaves⟩

end

/-- The response tracks the room exactly when each of these users is noticed
through a key change or a state block. -/
theorem tracksDevices_iff (incremental : context.lastSyncEndCount = some since)
    (joined : roomId ∈ server.roomsJoined context.syncingUser)
    (encrypted : (server.rooms roomId).isEncrypted = true)
    (before : StateEntries) :
    server.TracksDevices context roomId before ↔
      (∀ userId, userId ≠ context.syncingUser →
        server.BecameJoined roomId before userId →
        ¬ server.SharesOther context.syncingUser userId roomId →
          server.JoinNoticed context roomId userId) ∧
      ∀ userId, server.LeftSince roomId before userId →
        ¬ server.SharesOther context.syncingUser userId roomId →
          server.LeaveNoticed context roomId userId := by
  unfold TracksDevices
  refine and_congr ?_ ?_
  · exact forall_congr' fun userId => forall₃_congr fun _ _ alone =>
      mem_changed_iff_joinNoticed incremental joined encrypted alone
  · exact forall_congr' fun userId => forall₂_congr fun _ alone =>
      mem_left_iff_leaveNoticed incremental joined encrypted alone

def memberPdu (eventId : EventId) (userId : UserId)
    (earlier : List EventId) : Pdu :=
  { chainedPdu eventId .roomMember (some userId) earlier with
    sender := userId
    content := .obj [("membership", .str "join")] }

def bobState : StateEntries :=
  [((.other "m.room.encryption", ""), "$encryption"),
    ((.roomMember, "@bob:h"), "$bob")]

def carolState : StateEntries :=
  bobState ++ [((.roomMember, "@carol:h"), "$carol")]

def encryptedRoom (keychangeidUserid : List (Nat × UserId)) : RoomSnapshot :=
  { storedRoom
      [(.normal 1, chainedPdu "$encryption" (.other "m.room.encryption")
          (some "") []),
        (.normal 2, memberPdu "$bob" "@bob:h" ["$encryption"]),
        (.normal 3, memberPdu "$carol" "@carol:h" ["$bob"])]
      carolState (fun _ => some bobState)
      (by unfold Ascending; decide) (by decide) with
    keychangeidUserid := keychangeidUserid }

def encryptedServer (keychangeidUserid : List (Nat × UserId)) :
    ServerSnapshot where
  ruma := StateRes.plainRuma
  rooms := fun _ => encryptedRoom keychangeidUserid
  roomsJoined := fun _ => ["!r:h"]
  keychangeidUserid := fun _ => []

theorem mem_of_membershipIn {ruma : Ruma} {room : RoomSnapshot}
    {state : StateEntries} {membership : MembershipState}
    (isMember : membershipIn ruma room state userId = some membership) :
    ∃ eventId, ((.roomMember, userId), eventId) ∈ state := by
  obtain ⟨pdu, isPdu, _⟩ := Option.bind_eq_some_iff.mp isMember
  obtain ⟨eventId, found, _⟩ := Option.bind_eq_some_iff.mp isPdu
  obtain ⟨before, after, split, _⟩ := lookup_eq_some_iff.mp found
  exact ⟨eventId, by simp [split]⟩

theorem eq_carol_of_becameJoined {keychangeidUserid : List (Nat × UserId)}
    (other : userId ≠ "@bob:h")
    (became : (encryptedServer keychangeidUserid).BecameJoined "!r:h" bobState
      userId) : userId = "@carol:h" := by
  obtain ⟨eventId, member⟩ := mem_of_membershipIn became.2
  have listed : userId = "@bob:h" ∨ userId = "@carol:h" := by
    have cases : ((.roomMember, userId), eventId) ∈ carolState := member
    simp only [carolState, bobState, mem_append, mem_cons,
      not_mem_nil, Prod.mk.injEq] at cases
    grind
  exact listed.resolve_left other

/-- Carol uploads her keys as she joins. -/
theorem tracksDevices_of_upload :
    (encryptedServer [(4, "@carol:h")]).TracksDevices (sinceTwo 4) "!r:h"
      bobState := by
  have incremental : (sinceTwo 4).lastSyncEndCount = some 2 := rfl
  refine (tracksDevices_iff incremental (by decide) (by decide)
    bobState).mpr ⟨?_, ?_⟩
  · intro userId other became _
    rw [eq_carol_of_becameJoined other became]
    exact .inr (.inl ⟨4, by decide, by decide, by decide⟩)
  · intro userId left _
    obtain ⟨eventId, member⟩ := mem_of_membershipIn left.1
    have isBob : userId = "@bob:h" := by
      simp only [bobState, mem_cons, not_mem_nil, Prod.mk.injEq] at member
      grind
    rw [isBob] at left
    exact absurd (by decide) left.2

theorem timelineJoin_untracked :
    ¬ (encryptedServer []).TracksDevices (sinceTwo 3) "!r:h" bobState := by
  intro tracks
  have became : (encryptedServer []).BecameJoined "!r:h" bobState
      "@carol:h" := ⟨by decide, by decide⟩
  have alone : ¬ (encryptedServer []).SharesOther "@bob:h" "@carol:h"
      "!r:h" := by
    rw [← shareEncryptedRoom_iff]
    decide
  have noticed := tracks.1 "@carol:h" (by decide) became alone
  revert noticed
  decide

end ServerSnapshot

end ArcanaServer.Sync
