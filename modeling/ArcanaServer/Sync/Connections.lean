import ArcanaServer.Globals.Counter
import ArcanaServer.Sync.DeviceLists
import ArcanaServer.Users.Accounts
import Mathlib.Data.List.AList
import Mathlib.Data.List.Sort

namespace ArcanaServer.Sync

open ArcanaServer.Matrix
open Users (DeviceId)

/-! The requests of sliding sync and what a connection remembers of them. -/

abbrev ListId := String

structure ListFilters where
  isInvite : Option Bool
  notRoomTypes : List (Option String)

structure RequestList where
  ranges : List (Nat × Nat)
  timelineLimit : Nat
  requiredState : List TypeStateKey
  includeHeroes : Option Bool
  filters : Option ListFilters

structure RoomSubscription where
  requiredState : List TypeStateKey
  timelineLimit : Nat

abbrev Subscriptions := AList (fun _ : RoomId => RoomSubscription)

/-- The configuration of an extension that is about rooms. -/
structure RoomExtension where
  enabled : Option Bool
  lists : Option (List ListId)
  rooms : Option (List RoomId)

def RoomExtension.default : RoomExtension where
  enabled := none
  lists := none
  rooms := none

structure Extensions where
  toDevice : Option Bool
  e2ee : Option Bool
  accountData : RoomExtension
  receipts : RoomExtension
  typing : RoomExtension

def Extensions.default : Extensions where
  toDevice := none
  e2ee := none
  accountData := .default
  receipts := .default
  typing := .default

/-- The body of a request.  `pos` is the number in the request's position, if it
has one. -/
structure Request where
  pos : Option Nat
  connId : Option String
  txnId : Option String
  lists : List (ListId × RequestList)
  roomSubscriptions : Subscriptions
  extensions : Extensions

def Request.globalsince (request : Request) : Nat := request.pos.getD 0

abbrev KnownRooms := ListId → RoomId → Option Nat

structure SnakeSyncCache where
  lists : ListId → Option RequestList
  subscriptions : Subscriptions
  knownRooms : KnownRooms
  extensions : Extensions

def SnakeSyncCache.default : SnakeSyncCache where
  lists := fun _ => none
  subscriptions := ∅
  knownRooms := fun _ _ => none
  extensions := .default

abbrev SnakeConnectionsKey := UserId × DeviceId × Option String

abbrev SnakeConnections := SnakeConnectionsKey → Option SnakeSyncCache

def listOrSticky {α : Type} (target cached : List α) : List α :=
  if target.isEmpty then cached else target

def someOrSticky {α : Type} (target cached : Option α) : Option α :=
  target.or cached

def stickyFilters : Option ListFilters → Option ListFilters → Option ListFilters
  | some filters, some cached =>
      some
        { isInvite := someOrSticky filters.isInvite cached.isInvite
          notRoomTypes :=
            listOrSticky filters.notRoomTypes cached.notRoomTypes }
  | none, some cached => some cached
  | filters, none => filters

def stickyList (list : RequestList) : Option RequestList → RequestList
  | none => list
  | some cached =>
      { list with
        requiredState := listOrSticky list.requiredState cached.requiredState
        includeHeroes := someOrSticky list.includeHeroes cached.includeHeroes
        filters := stickyFilters list.filters cached.filters }

def stickyExtension (extension cached : RoomExtension) : RoomExtension where
  enabled := someOrSticky extension.enabled cached.enabled
  lists := someOrSticky extension.lists cached.lists
  rooms := someOrSticky extension.rooms cached.rooms

def stickyExtensions (extensions cached : Extensions) : Extensions where
  toDevice := someOrSticky extensions.toDevice cached.toDevice
  e2ee := someOrSticky extensions.e2ee cached.e2ee
  accountData := stickyExtension extensions.accountData cached.accountData
  receipts := stickyExtension extensions.receipts cached.receipts
  typing := stickyExtension extensions.typing cached.typing

def stickyLists (cached : SnakeSyncCache) (request : Request) :
    List (ListId × RequestList) :=
  request.lists.map
    (fun entry => (entry.1, stickyList entry.2 (cached.lists entry.1)))

/-- The request with the parameters of the earlier ones, and the cache with
those of this one. -/
def SnakeSyncCache.updateRequest (cached : SnakeSyncCache)
    (request : Request) : Request × SnakeSyncCache :=
  let lists := stickyLists cached request
  let subscriptions := request.roomSubscriptions ∪ cached.subscriptions
  let extensions := stickyExtensions request.extensions cached.extensions
  ({ request with
      lists := lists
      roomSubscriptions := subscriptions ∪ request.roomSubscriptions
      extensions := extensions },
    { cached with
      lists := fun listId => (lists.lookup listId).or (cached.lists listId)
      subscriptions := subscriptions
      extensions := extensions })

namespace SnakeConnections

variable (connections : SnakeConnections)

variable (key : SnakeConnectionsKey)

def cached : SnakeSyncCache :=
  (connections key).getD .default

def snakeConnectionCached : Bool :=
  (connections key).isSome

def forgetSnakeSyncConnection : SnakeConnections :=
  Function.update connections key none

def updateSnakeSyncRequestWithCache (request : Request) :
    Request × KnownRooms × SnakeConnections :=
  let cached := connections.cached key
  let (merged, updated) := cached.updateRequest request
  (merged, cached.knownRooms, Function.update connections key (some updated))

/-- The rooms of the list get the position, the other rooms known for it are
out of date. -/
def updateSnakeSyncKnownRooms (listId : ListId) (newCachedRooms : List RoomId)
    (globalsince : Nat) : SnakeConnections :=
  let cached := connections.cached key
  let known : RoomId → Option Nat := fun roomId =>
    if roomId ∈ newCachedRooms then some globalsince
    else (cached.knownRooms listId roomId).map (fun _ => 0)
  Function.update connections key
    (some { cached with
      knownRooms := Function.update cached.knownRooms listId known })

end SnakeConnections

def uintMax : Nat := 2 ^ 53 - 1

structure Profile where
  displayname : Option String
  avatarUrl : Option String

/-- What a request reads of a room beyond its events and its state.  `roomType`
is `none` where it cannot be read, and `some none` for a room without one. -/
structure RoomDetails where
  hasShortRoomId : Bool
  isDisabled : Bool
  isBanned : Bool
  roomType : Option (Option String)
  readReceipts : List (Nat × UserId × Json)
  privateRead : UserId → Option Json
  lastTypingUpdate : Nat
  typingUsers : List UserId
  members : List UserId
  getMember : UserId → Option Profile
  name : Option String
  avatarUrl : Option String
  joinedCount : Option Nat
  invitedCount : Option Nat

structure UserData where
  roomsInvited : List RoomId
  isIgnoredInvite : RoomId → Bool
  roomsKnocked : List RoomId
  inviteState : RoomId → Option Json
  accountData : Option RoomId → List (Nat × Json)
  lastPrivatereadUpdate : RoomId → Nat
  highlightCount : RoomId → Nat
  notificationCount : RoomId → Nat
  userIsIgnored : UserId → Bool
  isIgnoredPdu : Pdu → Bool
  toDeviceEvents : DeviceId → List (Nat × Json)
  oneTimeKeys : DeviceId → List (String × Nat)

/-- `keyLe` is the order of the event types and state keys. -/
structure SlidingServer extends ServerSnapshot where
  details : RoomId → RoomDetails
  users : UserId → UserData
  keyLe : TypeStateKey → TypeStateKey → Bool

/-- A room to answer for: the state that is asked for, the most events, and the
position that its timeline starts from. -/
structure TodoRoom where
  requiredState : List TypeStateKey
  timelineLimit : Nat
  roomsince : Nat

abbrev TodoRooms := RoomId → Option TodoRoom

def TodoRoom.new : TodoRoom where
  requiredState := []
  timelineLimit := 0
  roomsince := u64Max

structure Hero where
  userId : UserId
  name : Option String
  avatar : Option String

namespace Hero

def shownName (hero : Hero) : String := hero.name.getD hero.userId

end Hero

structure Room where
  name : Option String
  avatar : Option String
  initial : Bool
  inviteState : Option Json
  highlightCount : Nat
  notificationCount : Nat
  timeline : List Pdu
  requiredState : List Pdu
  prevBatch : Option Nat
  limited : Bool
  joinedCount : Nat
  invitedCount : Nat
  bumpStamp : Option Nat
  heroes : List Hero

structure E2EE where
  deviceOneTimeKeysCount : List (String × Nat)
  changed : Finset UserId
  left : Finset UserId

def E2EE.default : E2EE where
  deviceOneTimeKeysCount := []
  changed := ∅
  left := ∅

structure ToDevice where
  nextBatch : Nat
  events : List Json

structure Response where
  txnId : Option String
  pos : Nat
  lists : List (ListId × Nat)
  rooms : RoomId → Option Room
  globalAccountData : List Json
  accountData : RoomId → Option (List Json)
  e2ee : E2EE
  toDevice : Option ToDevice
  receipts : RoomId → Option (List Json)
  typing : RoomId → Option (List UserId)

inductive SyncError where
  | unknownPos
  | invalidMember

def TodoRoom.add (keyLe : TypeStateKey → TypeStateKey → Bool)
    (todo : TodoRoom) (requiredState : List TypeStateKey) (limit : Nat)
    (known : Option Nat) : TodoRoom where
  requiredState := requiredState.foldl
    (fun keys key =>
      if key ∈ keys then keys
      else keys.orderedInsert (fun first second => keyLe first second) key)
    todo.requiredState
  timelineLimit := max todo.timelineLimit limit
  roomsince := min todo.roomsince (known.getD 0)

def sliceRange (activeRooms : List RoomId) (range : Nat × Nat) :
    List RoomId :=
  let length := min activeRooms.length uintMax
  let start := min range.1 length
  let stop := if range.2 + 1 ≤ uintMax then range.2 + 1 else range.2
  let stop := max start (min stop length)
  (activeRooms.drop start).take (stop - start)

namespace SlidingServer

variable (server : SlidingServer)

variable (senderUser : UserId)

def allInvitedRooms : List RoomId :=
  (server.users senderUser).roomsInvited.filter
    (fun roomId => !(server.users senderUser).isIgnoredInvite roomId)

def allRooms : List RoomId :=
  server.roomsJoined senderUser ++ server.allInvitedRooms senderUser ++
    (server.users senderUser).roomsKnocked

def filterRooms (filter : List (Option String)) (rooms : List RoomId) :
    List RoomId :=
  rooms.filter (fun roomId =>
    match (server.details roomId).roomType with
    | none => false
    | some roomType => roomType ∉ filter)

def activeRooms (filters : Option ListFilters) : List RoomId :=
  let active := match filters.bind (·.isInvite) with
    | none => server.allRooms senderUser
    | some true => server.allInvitedRooms senderUser
    | some false => server.roomsJoined senderUser
  match filters.map (·.notRoomTypes) with
  | none => active
  | some [] => active
  | some filter => server.filterRooms filter active

def listedRooms (list : RequestList) : List RoomId :=
  list.ranges.flatMap (sliceRange (server.activeRooms senderUser list.filters))

def addRoom (requiredState : List TypeStateKey) (limit : Nat)
    (known : RoomId → Option Nat) (todoRooms : TodoRooms) (roomId : RoomId) :
    TodoRooms :=
  Function.update todoRooms roomId
    (some (((todoRooms roomId).getD .new).add server.keyLe requiredState limit
      (known roomId)))

def addList (knownRooms : KnownRooms) (todoRooms : TodoRooms)
    (entry : ListId × RequestList) : TodoRooms :=
  (server.listedRooms senderUser entry.2).foldl
    (server.addRoom entry.2.requiredState (min entry.2.timelineLimit 100)
      (knownRooms entry.1))
    todoRooms

variable (senderUser : UserId) (senderDevice : DeviceId) (body : Request)

def noteKnown (listId : ListId) (roomIds : List RoomId)
    (connections : SnakeConnections) : SnakeConnections :=
  match body.connId with
  | some connId =>
      connections.updateSnakeSyncKnownRooms
        (senderUser, senderDevice, some connId) listId roomIds
        body.globalsince
  | none => connections

def handleLists (knownRooms : KnownRooms) (connections : SnakeConnections) :
    TodoRooms × SnakeConnections :=
  (body.lists.foldl (server.addList senderUser knownRooms) (fun _ => none),
    body.lists.foldl
      (fun connections entry =>
        noteKnown senderUser senderDevice body entry.1
          (server.listedRooms senderUser entry.2) connections)
      connections)

variable (roomId : RoomId)

def isAvailable : Bool :=
  (server.details roomId).hasShortRoomId &&
    !(server.rooms roomId).table.isEmpty &&
    !(server.details roomId).isDisabled && !(server.details roomId).isBanned

def subscribedRooms : List (Σ _ : RoomId, RoomSubscription) :=
  body.roomSubscriptions.entries.filter
    (fun entry => server.isAvailable entry.1)

def addSubscription (knownRooms : KnownRooms) (todoRooms : TodoRooms)
    (entry : Σ _ : RoomId, RoomSubscription) : TodoRooms :=
  server.addRoom entry.2.requiredState entry.2.timelineLimit
    (knownRooms "subscriptions") todoRooms entry.1

def fetchSubscriptions (knownRooms : KnownRooms) (todoRooms : TodoRooms)
    (connections : SnakeConnections) : TodoRooms × SnakeConnections :=
  ((server.subscribedRooms body).foldl (server.addSubscription knownRooms)
      todoRooms,
    noteKnown senderUser senderDevice body "subscriptions"
      ((server.subscribedRooms body).map Sigma.fst) connections)

def changesSince (rows : List (Nat × Json)) (since : Nat)
    (stop : Option Nat) : List Json :=
  (rows.filter (fun row => since < row.1 && stop.all (row.1 ≤ ·))).map Prod.snd

def loadRoom (nextBatch : Nat) (todo : TodoRoom) : Option TimelinePdus :=
  if roomId ∈ server.allInvitedRooms senderUser then
    some { pdus := [], limited := true }
  else if (server.details roomId).hasShortRoomId then
    some (loadTimeline (server.rooms roomId).table
      (some (.normal todo.roomsince)) (some (.normal nextBatch))
      todo.timelineLimit)
  else none

def roomReceipts (roomsince : Nat) : List Json :=
  let user := server.users senderUser
  let details := server.details roomId
  ((details.readReceipts.filter (fun row =>
    roomsince < row.1 && !user.userIsIgnored row.2.1)).map
      (fun row => row.2.2)) ++
    (if roomsince < user.lastPrivatereadUpdate roomId then
      details.privateRead senderUser
    else none).toList

/-- A wildcard replaces the later keys of its type. -/
def requiredStateFrom (room : RoomSnapshot) :
    List EventType → List TypeStateKey → List Pdu
  | _, [] => []
  | wildcardTypes, (eventType, stateKey) :: rest =>
      if eventType ∈ wildcardTypes then
        requiredStateFrom room wildcardTypes rest
      else if stateKey = "*" then
        ((room.currentState.filter
          (fun entry => entry.1.1 = eventType)).filterMap
            (fun entry =>
              room.stateGet room.currentState eventType entry.1.2)) ++
          requiredStateFrom room (eventType :: wildcardTypes) rest
      else
        (room.stateGet room.currentState eventType stateKey).toList ++
          requiredStateFrom room wildcardTypes rest

def collectRequiredState (requiredStateRequest : List TypeStateKey) :
    List Pdu :=
  requiredStateFrom (server.rooms roomId) [] requiredStateRequest

def roomHeroes (details : RoomDetails) : List Hero :=
  ((details.members.filter (· ≠ senderUser)).filterMap (fun userId =>
    (details.getMember userId).map (fun profile =>
      { userId := userId
        name := profile.displayname
        avatar := profile.avatarUrl }))).take 5

def heroesName : List Hero → Option String
  | [] => none
  | [hero] => some hero.shownName
  | last :: firsts =>
      some (", ".intercalate (firsts.map Hero.shownName) ++ " and " ++
        last.shownName)

def heroesAvatar : List Hero → Option String
  | [hero] => hero.avatar
  | _ => none

def defaultBumpTypes : List EventType :=
  [.other "m.call.invite", .other "m.poll.start", .other "m.beacon",
    .other "m.room.encrypted", .other "m.room.message", .other "m.sticker"]

def bumpStamp (timelinePdus : List (PduCount × Pdu)) : Option Nat :=
  timelinePdus.foldl
    (fun timestamp entry =>
      if entry.2.kind ∈ defaultBumpTypes &&
          timestamp.all (· ≤ entry.2.originServerTs) then
        some entry.2.originServerTs
      else timestamp)
    none

def prevBatchOf (timelinePdus : List (PduCount × Pdu)) (roomsince : Nat) :
    Option Nat :=
  match timelinePdus.head? with
  | some (.backfilled _, _) => some 0
  | some (.normal count, _) => some count
  | none => if roomsince ≠ 0 then some roomsince else none

def rumaFrom (count : Nat) : Nat :=
  if count ≤ uintMax then count else 0

def roomAnswer (todo : TodoRoom) (timeline : TimelinePdus) : Room :=
  let user := server.users senderUser
  let details := server.details roomId
  let heroes := roomHeroes senderUser details
  { name := details.name.or (heroesName heroes)
    avatar := (heroesAvatar heroes).or details.avatarUrl
    initial := todo.roomsince = 0
    inviteState :=
      if roomId ∈ server.allInvitedRooms senderUser then
        user.inviteState roomId
      else none
    highlightCount := user.highlightCount roomId
    notificationCount := user.notificationCount roomId
    timeline := (timeline.pdus.filter
      (fun entry => !user.isIgnoredPdu entry.2)).map Prod.snd
    requiredState := server.collectRequiredState roomId todo.requiredState
    prevBatch := prevBatchOf timeline.pdus todo.roomsince
    limited := timeline.limited
    joinedCount := rumaFrom (details.joinedCount.getD 0)
    invitedCount := rumaFrom (details.invitedCount.getD 0)
    bumpStamp := bumpStamp timeline.pdus
    heroes := heroes }

structure Processed where
  accountData : Option (List Json)
  receipts : List Json
  room : Option Room

def processRoom (nextBatch : Nat) (body : Request)
    (collected : Option (List Json)) (roomId : RoomId) (todo : TodoRoom) :
    Processed :=
  match server.loadRoom senderUser roomId nextBatch todo with
  | none => { accountData := collected, receipts := [], room := none }
  | some timeline =>
      let accountData :=
        if body.extensions.accountData.enabled = some true then
          some (changesSince ((server.users senderUser).accountData
            (some roomId)) todo.roomsince (some nextBatch))
        else collected
      let receipts := server.roomReceipts senderUser roomId todo.roomsince
      let skipped := todo.roomsince ≠ 0 && timeline.pdus.isEmpty &&
        accountData.all List.isEmpty && receipts.isEmpty
      { accountData := accountData
        receipts := receipts
        room :=
          if skipped then none
          else some (server.roomAnswer senderUser roomId todo timeline) }

def isEnabled (enabled : Option Bool) : Bool := enabled.getD false

def collectGlobalAccountData : List Json :=
  if isEnabled body.extensions.accountData.enabled then
    changesSince ((server.users senderUser).accountData none)
      body.globalsince none
  else []

def collectAccountData : Option (List Json) :=
  if isEnabled body.extensions.accountData.enabled &&
      roomId ∈ body.extensions.accountData.rooms.getD [] then
    some (changesSince ((server.users senderUser).accountData (some roomId))
      body.globalsince none)
  else none

def collectToDevice (nextBatch : Nat) : Option ToDevice :=
  if isEnabled body.extensions.toDevice then
    some
      { nextBatch := nextBatch
        events := (((server.users senderUser).toDeviceEvents
          senderDevice).filter (fun row =>
            body.globalsince < row.1 && row.1 ≤ nextBatch)).map Prod.snd }
  else none

def collectTypingEvents (todoRooms : TodoRooms) (roomId : RoomId) :
    Option (List UserId) := do
  let typing := body.extensions.typing
  let rooms := typing.rooms.getD (body.roomSubscriptions.keys)
  let lists := typing.lists.getD (body.lists.map Prod.fst)
  let todo ← todoRooms roomId
  if isEnabled typing.enabled && !(rooms.isEmpty && lists.isEmpty) &&
      todo.roomsince < (server.details roomId).lastTypingUpdate then
    some ((server.details roomId).typingUsers.filter
      (fun userId => !(server.users senderUser).userIsIgnored userId))
  else none

/-- The users to announce, and those that have left an encrypted room. -/
structure DeviceChanges where
  changed : Finset UserId
  leftEncrypted : Finset UserId

def otherMember (pdu : Pdu) : Option UserId :=
  if pdu.kind = .roomMember then
    (pdu.stateKey.filter server.ruma.validUserId).filter (· ≠ senderUser)
  else none

def noteChangedMember (changes : DeviceChanges) (pdu : Pdu) :
    Except SyncError DeviceChanges :=
  match server.otherMember senderUser pdu with
  | none => .ok changes
  | some userId =>
      match server.ruma.roomMember pdu.content with
      | none => .error .invalidMember
      | some .join =>
          if !server.shareEncryptedRoom senderUser userId (some roomId) then
            .ok { changes with changed := insert userId changes.changed }
          else .ok changes
      | some .leave =>
          .ok { changes with
            leftEncrypted := insert userId changes.leftEncrypted }
      | some _ => .ok changes

def changedState (room : RoomSnapshot) (recorded : StateEntries) :
    List Pdu :=
  (room.currentState.filter (fun entry =>
    recorded.lookup entry.1 ≠ some entry.2)).filterMap
      (fun entry => room.getPdu entry.2)

def newlyShared : Finset UserId :=
  ((server.details roomId).members.filter (fun userId =>
    userId ≠ senderUser && !server.shareEncryptedRoom senderUser userId
        (some roomId))).toFinset

def noteEncryptedRoom (recorded : StateEntries) (changes : DeviceChanges) :
    Except SyncError DeviceChanges := do
  let room := server.rooms roomId
  let sinceEncryption :=
    room.stateGet recorded (.other "m.room.encryption") ""
  let joinedSinceLastSync :=
    membershipIn server.ruma room recorded senderUser ≠ some .join
  let changes ← (changedState room recorded).foldlM
    (server.noteChangedMember senderUser roomId) changes
  if joinedSinceLastSync || sinceEncryption.isNone then
    return { changes with
      changed := changes.changed ∪ server.newlyShared senderUser roomId }
  else return changes

def noteKeyChanges (globalsince : Nat) (changes : DeviceChanges) :
    DeviceChanges :=
  { changes with
    changed := changes.changed ∪
      (keysChanged (server.rooms roomId).keychangeidUserid
        (some globalsince) none).toFinset }

def noteRoom (globalsince : Nat) (changes : DeviceChanges) (roomId : RoomId) :
    Except SyncError DeviceChanges := do
  let room := server.rooms roomId
  match room.tokenState globalsince with
  | none => return server.noteKeyChanges roomId globalsince changes
  | some recorded =>
      if recorded = room.currentState then return changes
      else
        let changes ←
          if room.isEncrypted then
            server.noteEncryptedRoom senderUser roomId recorded changes
          else pure changes
        return server.noteKeyChanges roomId globalsince changes

def collectE2ee : Except SyncError E2EE := do
  if !isEnabled body.extensions.e2ee then return .default
  else
    let changes ← (server.roomsJoined senderUser).foldlM
      (server.noteRoom senderUser body.globalsince)
      { changed := (keysChanged (server.keychangeidUserid senderUser)
          (some body.globalsince) none).toFinset
        leftEncrypted := ∅ }
    return {
      deviceOneTimeKeysCount :=
        (server.users senderUser).oneTimeKeys senderDevice
      changed := changes.changed
      left := changes.leftEncrypted.filter (fun userId =>
        !server.shareEncryptedRoom senderUser userId none) }

end SlidingServer

/-- A request, the count that it takes, and the server as it reads it and after
it has waited. -/
structure Exchange where
  senderUser : UserId
  senderDevice : DeviceId
  request : Request
  nextBatch : Nat
  server : SlidingServer
  afterWait : SlidingServer

namespace Exchange

variable (exchange : Exchange)

def snakeKey : SnakeConnectionsKey :=
  (exchange.senderUser, exchange.senderDevice, exchange.request.connId)

variable (connections : SnakeConnections)

def started : SnakeConnections :=
  if exchange.request.globalsince = 0 then
    connections.forgetSnakeSyncConnection exchange.snakeKey
  else connections

def merged : Request × KnownRooms × SnakeConnections :=
  (exchange.started connections).updateSnakeSyncRequestWithCache
    exchange.snakeKey exchange.request

def todo : TodoRooms × SnakeConnections :=
  let (body, knownRooms, connections) := exchange.merged connections
  let (todoRooms, connections) := exchange.server.handleLists
    exchange.senderUser exchange.senderDevice body knownRooms connections
  exchange.server.fetchSubscriptions exchange.senderUser
    exchange.senderDevice body knownRooms todoRooms connections

def processed (roomId : RoomId) : SlidingServer.Processed :=
  let (body, _) := exchange.merged connections
  let collected := exchange.server.collectAccountData exchange.senderUser
    body roomId
  match (exchange.todo connections).1 roomId with
  | none => { accountData := collected, receipts := [], room := none }
  | some todo =>
      exchange.server.processRoom exchange.senderUser exchange.nextBatch body
        collected roomId todo

def response (e2ee : E2EE) : Response :=
  let (body, _) := exchange.merged connections
  let processed := exchange.processed connections
  { txnId := body.txnId
    pos := exchange.nextBatch
    lists := body.lists.map (fun entry => (entry.1,
      (exchange.server.activeRooms exchange.senderUser entry.2.filters).length))
    rooms := fun roomId => (processed roomId).room
    globalAccountData := exchange.server.collectGlobalAccountData
      exchange.senderUser body
    accountData := fun roomId => (processed roomId).accountData
    e2ee := e2ee
    toDevice := exchange.server.collectToDevice exchange.senderUser
      exchange.senderDevice body exchange.nextBatch
    receipts := fun roomId =>
      if (processed roomId).receipts.isEmpty then none
      else some (processed roomId).receipts
    typing := exchange.afterWait.collectTypingEvents exchange.senderUser body
      (exchange.todo connections).1 }

end Exchange

def syncEventsV5 (connections : SnakeConnections) (exchange : Exchange) :
    SnakeConnections × Except SyncError Response :=
  if exchange.request.globalsince ≠ 0 ∧
      !connections.snakeConnectionCached exchange.snakeKey then
    (connections, .error .unknownPos)
  else
    let (body, _, updated) := exchange.merged connections
    match exchange.server.collectE2ee exchange.senderUser
      exchange.senderDevice body with
    | .error error => (updated, .error error)
    | .ok e2ee =>
        ((exchange.todo connections).2,
          .ok (exchange.response connections e2ee))

end ArcanaServer.Sync
