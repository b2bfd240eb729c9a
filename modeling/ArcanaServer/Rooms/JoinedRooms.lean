import ArcanaServer.KeyBackups.Service
import ArcanaServer.Rooms.Standing

namespace ArcanaServer.Rooms

open Library ArcanaServer.Matrix SortedTable
open Database (Key textKey textKey_inj textKey_cons strBytes
  fromSlice fromSlice_textKey prefix_of_clear separator_notMem_strBytes
  strBytes_inj)
open Database.Deserializer (ends_trailing)
open KeyBackups (Reader parseChecked plainReader)

/-! The rooms of a user, as a scan of the keys of the table tells them. -/

def userRoomKey (key : UserRoom) : Key := textKey [key.1, key.2]

theorem userRoomKey_injective : Function.Injective userRoomKey := by
  intro first second same
  have texts : [first.1, first.2] = [second.1, second.2] := textKey_inj rfl same
  obtain ⟨users, others⟩ := List.cons.inj texts
  exact Prod.ext users (List.cons.inj others).1

theorem prefix_userRoomKey_iff {userId : UserId} {key : UserRoom} :
    strBytes userId <+: userRoomKey key ↔
      strBytes userId <+: strBytes key.1 := by
  unfold userRoomKey
  rw [textKey_cons]
  exact prefix_of_clear (separator_notMem_strBytes userId) (ends_trailing _)

/-- The rows of `userroomid_joined`, each of which names a user and a room. -/
structure JoinedTable (reader : Reader) where
  rows : SortedTable Key Unit
  written : ∀ row ∈ rows, ∃ (userId : UserId) (roomId : reader.RoomId),
    row.1 = userRoomKey (userId, roomId)

namespace JoinedTable

variable {reader : Reader}

def empty (reader : Reader) : JoinedTable reader where
  rows := .empty
  written := fun _ member => absurd member not_mem_empty

variable (table : JoinedTable reader) (userId : UserId) (roomId : reader.RoomId)

def markAsJoined : JoinedTable reader where
  rows := table.rows.put (userRoomKey (userId, roomId)) ()
  written := by
    intro row member
    rcases mem_put.mp member with new | old
    · exact ⟨userId, roomId, congrArg Prod.fst new⟩
    · exact table.written row old.1

def markAsLeft : JoinedTable reader where
  rows := table.rows.erase (userRoomKey (userId, roomId))
  written := fun row member =>
    table.written row (mem_erase.mp member).1

section

variable (table : JoinedTable reader) (userId : UserId)

def isJoined (roomId : reader.RoomId) : Bool :=
  (table.rows.get (userRoomKey (userId, roomId))).isSome

def readRoomId (reader : Reader) (key : Key) : Option reader.RoomId :=
  match fromSlice reader.debug [.ignore, .str] key with
  | .ok [_, .component (.str roomId)] => parseChecked reader.isRoomId roomId
  | _ => none

/-- The prefix does not end with a separator. -/
def roomsJoined : List reader.RoomId :=
  (table.rows.scanPrefix (strBytes userId)).filterMap
    fun row => readRoomId reader row.1

def ListsJoined : Prop := (table.roomsJoined userId).Nodup ∧
    ∀ roomId, roomId ∈ table.roomsJoined userId ↔
      table.isJoined userId roomId = true

def NoLongerUser : Prop := ∀ other roomId, table.isJoined other roomId = true →
    strBytes userId <+: strBytes other → other = userId

end

section

variable {table : JoinedTable reader} {userId other : UserId}
  {roomId : reader.RoomId}

theorem isJoined_iff : table.isJoined userId roomId = true ↔
    (userRoomKey (userId, roomId), ()) ∈ table.rows := by
  unfold isJoined
  rw [Option.isSome_iff_exists]
  constructor
  · intro found
    obtain ⟨_, stored⟩ := found
    exact get_eq_some.mp stored
  · intro member
    exact ⟨(), get_eq_some.mpr member⟩

theorem readRoomId_userRoomKey :
    readRoomId reader (userRoomKey (userId, roomId)) = some roomId := by
  have read : fromSlice reader.debug [.ignore, .str]
      (userRoomKey (userId, roomId)) =
        .ok [.ignored, .component (.str roomId)] :=
    fromSlice_textKey reader.debug [(.ignore, userId), (.str, roomId)]
      le_rfl (by simp)
  unfold readRoomId
  rw [read]
  exact dif_pos roomId.property

theorem mem_scan_iff {row : Key × Unit} :
    row ∈ table.rows.scanPrefix (strBytes userId) ↔
      ∃ (other : UserId) (roomId : reader.RoomId),
        row = (userRoomKey (other, roomId), ()) ∧
        table.isJoined other roomId = true ∧
        strBytes userId <+: strBytes other := by
  rw [mem_scanPrefix]
  constructor
  · intro scanned
    obtain ⟨member, starts⟩ := scanned
    obtain ⟨other, roomId, isKey⟩ := table.written row member
    have whole : row = (userRoomKey (other, roomId), ()) := Prod.ext isKey rfl
    rw [whole] at member starts
    exact ⟨other, roomId, whole, isJoined_iff.mpr member,
      prefix_userRoomKey_iff.mp starts⟩
  · intro named
    obtain ⟨other, roomId, whole, joined, starts⟩ := named
    rw [whole]
    exact ⟨isJoined_iff.mp joined, prefix_userRoomKey_iff.mpr starts⟩

theorem mem_roomsJoined_iff : roomId ∈ table.roomsJoined userId ↔
    ∃ other, table.isJoined other roomId = true ∧
      strBytes userId <+: strBytes other := by
  unfold roomsJoined
  rw [List.mem_filterMap]
  constructor
  · intro scanned
    obtain ⟨row, member, isRead⟩ := scanned
    obtain ⟨other, room, whole, joined, starts⟩ := mem_scan_iff.mp member
    rw [whole, readRoomId_userRoomKey] at isRead
    rw [← Option.some.inj isRead]
    exact ⟨other, joined, starts⟩
  · intro extended
    obtain ⟨other, joined, starts⟩ := extended
    exact ⟨_, mem_scan_iff.mpr ⟨other, roomId, rfl, joined, starts⟩,
      readRoomId_userRoomKey⟩

theorem nodup_roomsJoined_iff : (table.roomsJoined userId).Nodup ↔
    ∀ first second roomId, table.isJoined first roomId = true →
      table.isJoined second roomId = true →
      strBytes userId <+: strBytes first →
      strBytes userId <+: strBytes second → first = second := by
  unfold roomsJoined List.Nodup
  rw [List.pairwise_filterMap]
  constructor
  · intro apart first second roomId one two startsOne startsTwo
    by_contra differ
    have oneRow := mem_scan_iff.mpr ⟨first, roomId, rfl, one, startsOne⟩
    have twoRow := mem_scan_iff.mpr ⟨second, roomId, rfl, two, startsTwo⟩
    have symmetric : Std.Symm fun row later : Key × Unit =>
        ∀ room, readRoomId reader row.1 = some room →
          ∀ another, readRoomId reader later.1 = some another →
            room ≠ another := by
      refine ⟨fun row later unequal room isRoom another isAnother => ?_⟩
      exact (unequal another isAnother room isRoom).symm
    have rowsDiffer : (userRoomKey (first, roomId), ()) ≠
        (userRoomKey (second, roomId), ()) := by
      intro same
      have keys := userRoomKey_injective (congrArg Prod.fst same)
      exact differ (congrArg Prod.fst keys)
    exact apart.forall oneRow twoRow rowsDiffer roomId readRoomId_userRoomKey
      roomId readRoomId_userRoomKey rfl
  · intro unique
    have distinct : (table.rows.scanPrefix (strBytes userId)).Nodup := by
      unfold scanPrefix
      rw [scanRows_eq_filter _ _ table.rows.sorted]
      exact table.rows.rows_nodup.filter _
    refine distinct.imp_of_mem ?_
    intro row later member laterMember differ room isRoom another isAnother same
    obtain ⟨first, one, wholeOne, joinedOne, startsOne⟩ :=
      mem_scan_iff.mp member
    obtain ⟨second, two, wholeTwo, joinedTwo, startsTwo⟩ :=
      mem_scan_iff.mp laterMember
    rw [wholeOne, readRoomId_userRoomKey] at isRoom
    rw [wholeTwo, readRoomId_userRoomKey] at isAnother
    have rooms : one = two := (Option.some.inj isRoom).trans
      (same.trans (Option.some.inj isAnother).symm)
    rw [← rooms] at joinedTwo wholeTwo
    have users := unique first second one joinedOne joinedTwo startsOne
      startsTwo
    exact differ (wholeOne.trans (users ▸ wholeTwo.symm))

/-- The list of rooms is exact where the user's id does not begin the id of
another user who is joined somewhere. -/
theorem listsJoined_iff (table : JoinedTable reader) (userId : UserId) :
    table.ListsJoined userId ↔ table.NoLongerUser userId := by
  unfold ListsJoined
  constructor
  · intro lists other roomId joined starts
    have listed := mem_roomsJoined_iff.mpr ⟨other, joined, starts⟩
    exact nodup_roomsJoined_iff.mp lists.1 other userId roomId joined
      ((lists.2 roomId).mp listed) starts List.prefix_rfl
  · intro noLonger
    constructor
    · refine nodup_roomsJoined_iff.mpr ?_
      intro first second roomId one two startsOne startsTwo
      exact (noLonger first roomId one startsOne).trans
        (noLonger second roomId two startsTwo).symm
    · intro roomId
      rw [mem_roomsJoined_iff]
      constructor
      · intro extended
        obtain ⟨other, joined, starts⟩ := extended
        rw [← noLonger other roomId joined starts]
        exact joined
      · intro joined
        exact ⟨userId, joined, List.prefix_rfl⟩

end

section

def Shows (table : JoinedTable reader) (cache : StateCache) : Prop :=
  Encodes userRoomKey table.rows cache.userroomidJoined

variable {table : JoinedTable reader} {cache : StateCache}
  {userId : UserId} {roomId : reader.RoomId}

theorem Shows.isJoined_iff (shows_ : table.Shows cache) :
    table.isJoined userId roomId = true ↔
      (userId, roomId.val) ∈ cache.userroomidJoined := by
  unfold isJoined
  rw [shows_.get userRoomKey_injective]
  exact AList.lookup_isSome

theorem empty_shows : (empty reader).Shows .empty := Encodes.empty

theorem Shows.markAsJoined (shows_ : table.Shows cache) :
    (table.markAsJoined userId roomId).Shows
      (cache.markAsJoined userId roomId) :=
  shows_.put userRoomKey_injective

theorem Shows.leave (shows_ : table.Shows cache) (leavePdu : Option Pdu) :
    (table.markAsLeft userId roomId).Shows
      (cache.leave userId roomId leavePdu) :=
  shows_.erase userRoomKey_injective

theorem Shows.markAsLeft (shows_ : table.Shows cache)
    (services : CacheServices) (leavePdu : Option Pdu) :
    (table.markAsLeft userId roomId).Shows
      (cache.markAsLeft services userId roomId leavePdu) := by
  unfold StateCache.markAsLeft
  split
  · exact shows_.leave leavePdu
  · exact shows_.leave leavePdu

theorem Shows.markAsKnocked (shows_ : table.Shows cache)
    (knockedState : Option StrippedState) :
    (table.markAsLeft userId roomId).Shows
      (cache.markAsKnocked userId roomId knockedState) :=
  shows_.erase userRoomKey_injective

theorem Shows.markAsInvited (shows_ : table.Shows cache)
    {services : CacheServices} {after : StateCache} {senderUser : UserId}
    {lastState : Option StrippedState} {inviteVia : Option (List ServerName)}
    (invited : cache.markAsInvited services userId roomId senderUser lastState
      inviteVia = .ok after) :
    (table.markAsLeft userId roomId).Shows after := by
  have erased : after.userroomidJoined =
      cache.userroomidJoined.erase (userId, roomId.val) := by
    unfold StateCache.markAsInvited at invited
    split at invited
    · cases invited
    · split at invited <;> cases invited <;> rfl
  unfold Shows
  rw [erased]
  exact shows_.erase userRoomKey_injective

end

section

def roomOf : CacheCall → Matrix.RoomId
  | .markAsJoined _ roomId | .markAsLeft _ roomId _
  | .markAsInvited _ roomId _ _ _ | .markAsKnocked _ roomId _
  | .forget roomId _ => roomId

/-- A call of the cache whose room id is one. -/
abbrev Call (reader : Reader) :=
  {call : CacheServices × CacheCall // reader.isRoomId (roomOf call.2) = true}

def step (table : JoinedTable reader) : Call reader → JoinedTable reader
  | ⟨(_, .markAsJoined userId roomId), isRoomId⟩ =>
      table.markAsJoined userId ⟨roomId, isRoomId⟩
  | ⟨(_, .markAsLeft userId roomId _), isRoomId⟩
  | ⟨(_, .markAsKnocked userId roomId _), isRoomId⟩ =>
      table.markAsLeft userId ⟨roomId, isRoomId⟩
  | ⟨(services, .markAsInvited userId roomId senderUser _ _), isRoomId⟩ =>
      if services.blocksInvite senderUser userId then table
      else table.markAsLeft userId ⟨roomId, isRoomId⟩
  | ⟨(_, .forget _ _), _⟩ => table

theorem Shows.step {table : JoinedTable reader} {cache : StateCache}
    (shows_ : table.Shows cache) (call : Call reader) :
    (table.step call).Shows (cache.step call.val).1 := by
  obtain ⟨⟨services, call⟩, isRoomId⟩ := call
  cases call with
  | markAsJoined userId roomId => exact shows_.markAsJoined
  | markAsLeft userId roomId leavePdu =>
      exact shows_.markAsLeft services leavePdu
  | markAsKnocked userId roomId knockedState =>
      exact shows_.markAsKnocked knockedState
  | forget roomId userId => exact shows_
  | markAsInvited userId roomId senderUser lastState inviteVia =>
      simp only [StateCache.step, JoinedTable.step]
      cases invited : cache.markAsInvited services userId roomId senderUser
          lastState inviteVia with
      | ok after =>
          rw [if_neg (StateCache.markAsInvited_ok invited).1]
          exact Shows.markAsInvited shows_ invited
      | error error =>
          rw [if_pos (StateCache.markAsInvited_error invited)]
          exact shows_

theorem shows_represents (calls : List (Call reader)) :
    ∃ cache : StateCache, (calls.foldl step (empty reader)).Shows cache ∧
      cache.Represents (calls.foldl (fun standings call =>
        standings.step call.val.1 call.val.2) (fun _ => none)) := by
  induction calls using List.reverseRecOn with
  | nil =>
      refine ⟨.empty, empty_shows, fun membership key => ?_⟩
      cases membership <;> exact iff_of_false (AList.notMem_empty key) (by simp)
  | append_singleton calls call ih =>
      obtain ⟨cache, shows_, represents⟩ := ih
      simp only [List.foldl_append, List.foldl_cons, List.foldl_nil]
      exact ⟨_, shows_.step call, represents.step call.val.1 call.val.2⟩

/-- After any calls the rows of a user are the rooms that the user is joined
to, and the scan adds those of the users whose ids begin with this one. -/
theorem joined_iff_standing (calls : List (Call reader)) (userId : UserId)
    (roomId : reader.RoomId) :
    let table := calls.foldl step (empty reader)
    let standings := calls.foldl (fun (standings : Standings) call =>
      standings.step call.val.1 call.val.2) (fun _ => none)
    (table.isJoined userId roomId = true ↔
      standings (userId, roomId.val) = some .joined) ∧
    (roomId ∈ table.roomsJoined userId ↔ ∃ other,
      standings (other, roomId.val) = some .joined ∧
        strBytes userId <+: strBytes other) := by
  intro table standings
  obtain ⟨cache, shows_, represents⟩ := shows_represents calls
  have stands : ∀ other, table.isJoined other roomId = true ↔
      standings (other, roomId.val) = some .joined :=
    fun other => shows_.isJoined_iff.trans (represents .joined _)
  refine ⟨stands userId, mem_roomsJoined_iff.trans ?_⟩
  exact exists_congr fun other => and_congr_left' (stands other)

end

/-- A room whose only member has a longer name of the same beginning. -/
def longerJoined : JoinedTable plainReader :=
  (empty plainReader).markAsJoined "@alice:here.org" ⟨"!room:here", rfl⟩

theorem longerJoined_listed :
    ¬ longerJoined.ListsJoined "@alice:here" := by
  intro lists
  have listed := (lists.2 ⟨"!room:here", rfl⟩).mp
    (mem_roomsJoined_iff.mpr ⟨"@alice:here.org", by decide, by decide⟩)
  exact absurd listed (by decide)

end JoinedTable

end ArcanaServer.Rooms
