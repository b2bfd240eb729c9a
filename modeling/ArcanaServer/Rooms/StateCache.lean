import ArcanaServer.Library.EntryTable
import ArcanaServer.Library.Trace
import ArcanaServer.Rooms.Short
import Mathlib.Data.Finset.Sort
import Mathlib.Data.String.Basic

namespace ArcanaServer.Rooms

open Library ArcanaServer.Matrix EntryTable List

/-! The tables of the state cache: where each user stands in each room. -/

abbrev UserRoom := UserId × RoomId

/-- The keys of `roomuserid_knockedcount`, which has a row for a room beside
those for its members. -/
inductive RoomUserKey where
  | room (roomId : RoomId)
  | member (roomId : RoomId) (userId : UserId)
  deriving DecidableEq, Repr

inductive FilterLevel where
  | allow
  | ignore
  | block
  deriving DecidableEq, Repr

abbrev StrippedState := List Json

inductive CacheError where
  | inviteBlocked (message : String)
  deriving DecidableEq, Repr

structure StateCache where
  counter : Nat
  userroomidJoined : EntryTable UserRoom Unit
  roomuseridJoined : EntryTable (RoomId × UserId) Unit
  userroomidInvitestate : EntryTable UserRoom StrippedState
  roomuseridInvitecount : EntryTable (RoomId × UserId) Nat
  userroomidInvitesender : EntryTable UserRoom UserId
  userroomidLeftstate : EntryTable UserRoom (Option Pdu)
  roomuseridLeftcount : EntryTable (RoomId × UserId) Nat
  userroomidKnockedstate : EntryTable UserRoom StrippedState
  roomuseridKnockedcount : EntryTable RoomUserKey Nat
  roomidInviteviaservers : EntryTable RoomId (List ServerName)
  roomidJoinedcount : EntryTable RoomId Nat
  roomidInvitedcount : EntryTable RoomId Nat
  roomserverids : EntryTable (RoomId × ServerName) Unit
  serverroomids : EntryTable (ServerName × RoomId) Unit

/-- What the other services and the configuration tell the state cache. -/
structure CacheServices where
  userIsLocal : UserId → Bool
  serverName : UserId → ServerName
  forgetForcedUponLeave : Bool
  isBanned : RoomId → Bool
  isDisabled : RoomId → Bool
  inviteFilterLevel : UserId → UserId → FilterLevel

namespace StateCache

def empty : StateCache where
  counter := 0
  userroomidJoined := ∅
  roomuseridJoined := ∅
  userroomidInvitestate := ∅
  roomuseridInvitecount := ∅
  userroomidInvitesender := ∅
  userroomidLeftstate := ∅
  roomuseridLeftcount := ∅
  userroomidKnockedstate := ∅
  roomuseridKnockedcount := ∅
  roomidInviteviaservers := ∅
  roomidJoinedcount := ∅
  roomidInvitedcount := ∅
  roomserverids := ∅
  serverroomids := ∅

def nextCount (cache : StateCache) : Nat :=
  nextCounter cache.counter

variable (cache : StateCache) (roomId : RoomId)

def roomMembers : List UserId :=
  (cache.roomuseridJoined.keys.filter (fun key => key.1 = roomId)).map Prod.snd

def roomMembersInvited : List UserId :=
  (cache.roomuseridInvitecount.keys.filter
    (fun key => key.1 = roomId)).map Prod.snd

def roomMembersKnocked : List UserId :=
  cache.roomuseridKnockedcount.keys.filterMap (fun
    | .member other userId => if other = roomId then some userId else none
    | .room _ => none)

def roomServers : List ServerName :=
  (cache.roomserverids.keys.filter (fun key => key.1 = roomId)).map Prod.snd

/-- `count()` of a stream, a `usize` that wraps around in a release build. -/
def streamCount {α : Type} (stream : List α) : Nat := stream.length % 2 ^ 64

/-- The last server of each row whose room begins with the given one. -/
def serversInviteVia : List ServerName :=
  cache.roomidInviteviaservers.entries.filterMap (fun row =>
    if roomId.toList.isPrefixOf row.1.toList then row.2.getLast? else none)

def addServersInviteVia (servers : List ServerName) : StateCache :=
  { cache with
    roomidInviteviaservers := cache.roomidInviteviaservers.insert roomId
      ((cache.serversInviteVia roomId ++ servers).toFinset.sort) }

def markAsJoined (userId : UserId) (roomId : RoomId) : StateCache :=
  { cache with
    userroomidJoined := cache.userroomidJoined.insert (userId, roomId) ()
    roomuseridJoined := cache.roomuseridJoined.insert (roomId, userId) ()
    userroomidInvitestate := cache.userroomidInvitestate.erase (userId, roomId)
    roomuseridInvitecount := cache.roomuseridInvitecount.erase (roomId, userId)
    userroomidInvitesender :=
      cache.userroomidInvitesender.erase (userId, roomId)
    userroomidLeftstate := cache.userroomidLeftstate.erase (userId, roomId)
    roomuseridLeftcount := cache.roomuseridLeftcount.erase (roomId, userId)
    userroomidKnockedstate :=
      cache.userroomidKnockedstate.erase (userId, roomId)
    roomuseridKnockedcount :=
      cache.roomuseridKnockedcount.erase (.member roomId userId)
    roomidInviteviaservers := cache.roomidInviteviaservers.erase roomId }

def forget (userId : UserId) : StateCache :=
  { cache with
    userroomidLeftstate := cache.userroomidLeftstate.erase (userId, roomId)
    roomuseridLeftcount := cache.roomuseridLeftcount.erase (roomId, userId) }

def leave (cache : StateCache) (userId : UserId) (roomId : RoomId)
    (leavePdu : Option Pdu) : StateCache :=
  { cache with
    counter := cache.nextCount
    userroomidLeftstate :=
      cache.userroomidLeftstate.insert (userId, roomId) leavePdu
    roomuseridLeftcount :=
      cache.roomuseridLeftcount.insert (roomId, userId) cache.nextCount
    userroomidJoined := cache.userroomidJoined.erase (userId, roomId)
    roomuseridJoined := cache.roomuseridJoined.erase (roomId, userId)
    userroomidInvitestate := cache.userroomidInvitestate.erase (userId, roomId)
    roomuseridInvitecount := cache.roomuseridInvitecount.erase (roomId, userId)
    userroomidInvitesender :=
      cache.userroomidInvitesender.erase (userId, roomId)
    userroomidKnockedstate :=
      cache.userroomidKnockedstate.erase (userId, roomId)
    roomuseridKnockedcount :=
      cache.roomuseridKnockedcount.erase (.member roomId userId)
    roomidInviteviaservers := cache.roomidInviteviaservers.erase roomId }

variable (services : CacheServices) (cache : StateCache)

variable (userId : UserId) (roomId : RoomId)

def markAsLeft (leavePdu : Option Pdu) : StateCache :=
  let left := cache.leave userId roomId leavePdu
  if services.userIsLocal userId && (services.forgetForcedUponLeave ||
      services.isBanned roomId || services.isDisabled roomId) then
    left.forget roomId userId
  else left

def markAsKnocked (knockedState : Option StrippedState) : StateCache :=
  { cache with
    counter := cache.nextCount
    userroomidKnockedstate := cache.userroomidKnockedstate.insert
      (userId, roomId) (knockedState.getD [])
    roomuseridKnockedcount := cache.roomuseridKnockedcount.insert
      (.member roomId userId) cache.nextCount
    userroomidJoined := cache.userroomidJoined.erase (userId, roomId)
    roomuseridJoined := cache.roomuseridJoined.erase (roomId, userId)
    userroomidInvitestate := cache.userroomidInvitestate.erase (userId, roomId)
    roomuseridInvitecount := cache.roomuseridInvitecount.erase (roomId, userId)
    userroomidInvitesender :=
      cache.userroomidInvitesender.erase (userId, roomId)
    userroomidLeftstate := cache.userroomidLeftstate.erase (userId, roomId)
    roomuseridLeftcount := cache.roomuseridLeftcount.erase (roomId, userId)
    roomidInviteviaservers := cache.roomidInviteviaservers.erase roomId }

def markAsInvited (senderUser : UserId) (lastState : Option StrippedState)
    (inviteVia : Option (List ServerName)) : Except CacheError StateCache :=
  if services.inviteFilterLevel senderUser userId = .block then
    .error (.inviteBlocked
      (userId ++ " has blocked invites from " ++ senderUser ++ "."))
  else
    let invited := { cache with
      counter := cache.nextCount
      userroomidInvitestate := cache.userroomidInvitestate.insert
        (userId, roomId) (lastState.getD [])
      roomuseridInvitecount := cache.roomuseridInvitecount.insert
        (roomId, userId) cache.nextCount
      userroomidInvitesender :=
        cache.userroomidInvitesender.insert (userId, roomId) senderUser
      userroomidJoined := cache.userroomidJoined.erase (userId, roomId)
      roomuseridJoined := cache.roomuseridJoined.erase (roomId, userId)
      userroomidLeftstate := cache.userroomidLeftstate.erase (userId, roomId)
      roomuseridLeftcount := cache.roomuseridLeftcount.erase (roomId, userId)
      userroomidKnockedstate :=
        cache.userroomidKnockedstate.erase (userId, roomId)
      roomuseridKnockedcount :=
        cache.roomuseridKnockedcount.erase (.member roomId userId) }
    match inviteVia.filter (fun servers => !servers.isEmpty) with
    | some servers => .ok (invited.addServersInviteVia roomId servers)
    | none => .ok invited

/-- The count of the knocking members goes under the room alone into the table
that holds a row for each of them. -/
def updateJoinedCount (roomId : RoomId) : StateCache :=
  let members := cache.roomMembers roomId
  let joinedServers := (members.map services.serverName).dedup
  let oldServers := cache.roomServers roomId
  let gone := oldServers.filter (fun server => !joinedServers.contains server)
  let new := joinedServers.filter (fun server => !oldServers.contains server)
  { cache with
    roomidJoinedcount :=
      cache.roomidJoinedcount.insert roomId (min members.length u64Max)
    roomidInvitedcount := cache.roomidInvitedcount.insert roomId
      (streamCount (cache.roomMembersInvited roomId))
    roomuseridKnockedcount := cache.roomuseridKnockedcount.insert
      (.room roomId) (streamCount (cache.roomMembersKnocked roomId))
    roomserverids := new.foldl
      (fun table server => table.insert (roomId, server) ())
      (gone.foldl (fun table server => table.erase (roomId, server))
        cache.roomserverids)
    serverroomids := new.foldl
      (fun table server => table.insert (server, roomId) ())
      (gone.foldl (fun table server => table.erase (server, roomId))
        cache.serverroomids) }

end StateCache

namespace StateCache

section

variable (services : CacheServices) {cache : StateCache} (roomId : RoomId)

def hereServices : CacheServices where
  userIsLocal := fun _ => true
  serverName := fun _ => "here"
  forgetForcedUponLeave := false
  isBanned := fun _ => false
  isDisabled := fun _ => false
  inviteFilterLevel := fun _ _ => .allow

end

end StateCache

end ArcanaServer.Rooms
