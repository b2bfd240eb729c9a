import ArcanaServer.Sync.Confidentiality

namespace ArcanaServer.Sync

open Library ArcanaServer.Matrix SlidingServer
open Users (DeviceId)
open ServerSnapshot List

def ChangedAfter (rows : List (Nat × UserId)) (since : Nat)
    (userId : UserId) : Prop :=
  ∃ count, (count, userId) ∈ rows ∧ since < count

theorem mem_keysChanged_open {rows : List (Nat × UserId)} {since : Nat}
    {userId : UserId} :
    userId ∈ keysChanged rows (some since) none ↔
      ChangedAfter rows since userId := by
  unfold keysChanged ChangedAfter
  simp only [mem_map, mem_filter, Bool.and_eq_true,
    decide_eq_true_iff, Option.all_none, and_true, Option.getD_some]
  constructor
  · rintro ⟨⟨count, _⟩, ⟨member, later⟩, rfl⟩
    exact ⟨count, member, later⟩
  · rintro ⟨count, member, later⟩
    exact ⟨(count, userId), ⟨member, later⟩, rfl⟩

namespace SlidingServer

def PassedOver (server : SlidingServer) (since : Nat) (roomId : RoomId) :
    Prop :=
  (server.rooms roomId).tokenState since =
    some (server.rooms roomId).currentState

variable (server : SlidingServer) (senderUser : UserId)

def JoinsAfter (roomId : RoomId) (recorded : StateEntries) (userId : UserId) :
    Prop :=
  ∃ pdu ∈ changedState (server.rooms roomId) recorded,
    server.otherMember senderUser pdu = some userId ∧
      server.ruma.roomMember pdu.content = some .join

def NewToSender (roomId : RoomId) (recorded : StateEntries) : Prop :=
  membershipIn server.ruma (server.rooms roomId) recorded senderUser ≠
      some .join ∨
    (server.rooms roomId).stateGet recorded (.other "m.room.encryption") "" =
      none

def NewcomerSeen (since : Nat) (roomId : RoomId) (userId : UserId) : Prop :=
  ∃ recorded, (server.rooms roomId).tokenState since = some recorded ∧
    recorded ≠ (server.rooms roomId).currentState ∧
    (server.rooms roomId).isEncrypted = true ∧
    ¬ server.SharesOther senderUser userId roomId ∧
    (server.JoinsAfter senderUser roomId recorded userId ∨
      server.NewToSender senderUser roomId recorded ∧
        userId ∈ (server.details roomId).members ∧ userId ≠ senderUser)

def ChangeRead (since : Nat) (roomId : RoomId) (userId : UserId) : Prop :=
  ¬ server.PassedOver since roomId ∧
    ChangedAfter (server.rooms roomId).keychangeidUserid since userId

def Announces (since : Nat) (userId : UserId) : Prop :=
  ChangedAfter (server.keychangeidUserid senderUser) since userId ∨
    ∃ roomId ∈ server.roomsJoined senderUser,
      server.ChangeRead since roomId userId ∨
        server.NewcomerSeen senderUser since roomId userId

variable {server : SlidingServer} {senderUser userId : UserId}
  {senderDevice : DeviceId} {since : Nat} {roomId : RoomId}
  {changes after : DeviceChanges} {recorded : StateEntries} {pdu : Pdu}

theorem noteChangedMember_changed
    (noted : server.noteChangedMember senderUser roomId changes pdu =
      .ok after) :
    userId ∈ after.changed ↔ userId ∈ changes.changed ∨
        (server.otherMember senderUser pdu = some userId ∧
          server.ruma.roomMember pdu.content = some .join ∧
          ¬ server.SharesOther senderUser userId roomId) := by
  unfold noteChangedMember at noted
  cases isMember : server.otherMember senderUser pdu with
  | none =>
      rw [isMember] at noted
      cases noted
      simp
  | some named =>
      simp only [isMember] at noted
      rw [Option.some.injEq]
      split at noted
      · cases noted
      next joins =>
        rw [joins]
        split at noted
        next apart =>
          cases noted
          rw [Bool.not_eq_true', ← Bool.not_eq_true,
            shareEncryptedRoom_iff] at apart
          rw [Finset.mem_insert]
          constructor
          · rintro (rfl | earlier)
            · exact .inr ⟨rfl, rfl, apart⟩
            · exact .inl earlier
          · rintro (earlier | ⟨rfl, _, _⟩)
            · exact .inr earlier
            · exact .inl rfl
        next together =>
          cases noted
          rw [Bool.not_eq_true', Bool.not_eq_false,
            shareEncryptedRoom_iff] at together
          constructor
          · exact .inl
          · rintro (earlier | ⟨rfl, _, apart⟩)
            · exact earlier
            · exact absurd together apart
      next leaves =>
        cases noted
        simp [leaves]
      next membership notJoin _ isMembership =>
        cases noted
        constructor
        · exact .inl
        · rintro (earlier | ⟨_, joins, _⟩)
          · exact earlier
          · rw [isMembership] at joins
            exact absurd (Option.some.inj joins) notJoin

theorem mem_newlyShared : userId ∈ server.newlyShared senderUser roomId ↔
      userId ∈ (server.details roomId).members ∧ userId ≠ senderUser ∧
        ¬ server.SharesOther senderUser userId roomId := by
  unfold newlyShared
  rw [mem_toFinset, mem_filter, Bool.and_eq_true,
    decide_eq_true_iff, Bool.not_eq_true', ← Bool.not_eq_true,
    shareEncryptedRoom_iff]

theorem noteEncryptedRoom_changed
    (noted : server.noteEncryptedRoom senderUser roomId recorded changes =
      .ok after) :
    userId ∈ after.changed ↔ userId ∈ changes.changed ∨
        ¬ server.SharesOther senderUser userId roomId ∧
        (server.JoinsAfter senderUser roomId recorded userId ∨
          server.NewToSender senderUser roomId recorded ∧
            userId ∈ (server.details roomId).members ∧
            userId ≠ senderUser) := by
  unfold noteEncryptedRoom at noted
  obtain ⟨between, members, rest⟩ := bind_eq_ok noted
  have seen := foldlM_iff
    (fun changes : DeviceChanges => userId ∈ changes.changed)
    (fun pdu => server.otherMember senderUser pdu = some userId ∧
      server.ruma.roomMember pdu.content = some .join ∧
      ¬ server.SharesOther senderUser userId roomId)
    noteChangedMember_changed members
  have isNew : (decide (membershipIn server.ruma (server.rooms roomId)
        recorded senderUser ≠ some .join) ||
      ((server.rooms roomId).stateGet recorded (.other "m.room.encryption")
        "").isNone) = true ↔
      server.NewToSender senderUser roomId recorded := by
    rw [Bool.or_eq_true, decide_eq_true_iff, Option.isNone_iff_eq_none]
    rfl
  unfold JoinsAfter
  split at rest
  next holds =>
    cases rest
    rw [isNew] at holds
    rw [Finset.mem_union, seen, mem_newlyShared]
    grind
  next fails =>
    cases rest
    rw [isNew] at fails
    rw [seen]
    grind

theorem mem_noteKeyChanges :
    userId ∈ (server.noteKeyChanges roomId since changes).changed ↔
      userId ∈ changes.changed ∨
        ChangedAfter (server.rooms roomId).keychangeidUserid since userId := by
  unfold noteKeyChanges
  rw [Finset.mem_union, mem_toFinset, mem_keysChanged_open]

theorem noteRoom_changed
    (noted : server.noteRoom senderUser since changes roomId = .ok after) :
    userId ∈ after.changed ↔ userId ∈ changes.changed ∨
        (server.ChangeRead since roomId userId ∨
          server.NewcomerSeen senderUser since roomId userId) := by
  unfold noteRoom at noted
  unfold ChangeRead NewcomerSeen PassedOver
  dsimp only at noted
  cases isRecorded : (server.rooms roomId).tokenState since with
  | none =>
      rw [isRecorded] at noted
      cases noted
      rw [mem_noteKeyChanges]
      simp
  | some recorded =>
      simp only [isRecorded] at noted
      split at noted
      next same =>
        cases noted
        simp [same]
      next differs =>
        split at noted
        next encrypted =>
          obtain ⟨between, newcomers, rest⟩ := bind_eq_ok noted
          cases rest
          rw [mem_noteKeyChanges, noteEncryptedRoom_changed newcomers]
          simp only [Option.some.injEq, exists_eq_left', differs,
            not_false_eq_true, ne_eq, encrypted, true_and]
          rw [or_assoc]
          exact or_congr_right or_comm
        next plain =>
          cases noted
          rw [mem_noteKeyChanges]
          simp [differs, plain]

theorem mem_collectE2ee_changed {body : Request} {e2ee : E2EE}
    (enabled : isEnabled body.extensions.e2ee = true)
    (collected : server.collectE2ee senderUser senderDevice body = .ok e2ee) :
    userId ∈ e2ee.changed ↔
      server.Announces senderUser body.globalsince userId := by
  unfold collectE2ee at collected
  rw [enabled] at collected
  obtain ⟨changes, rooms, rest⟩ := bind_eq_ok collected
  cases rest
  have seen := foldlM_iff
    (fun changes : DeviceChanges => userId ∈ changes.changed)
    (fun roomId => server.ChangeRead body.globalsince roomId userId ∨
      server.NewcomerSeen senderUser body.globalsince roomId userId)
    noteRoom_changed rooms
  rw [seen, mem_toFinset, mem_keysChanged_open]
  rfl

end SlidingServer

namespace Exchange

/-- A user of the room has changed keys since the token of the request. -/
def ChangesKeys (exchange : Exchange) (roomId : RoomId) (userId : UserId) :
    Prop :=
  userId ∈ (exchange.server.details roomId).members ∧
    ∃ count, (count, userId) ∈ exchange.server.keychangeidUserid userId ∧
      exchange.request.globalsince < count ∧ count ≤ exchange.nextBatch

/-- The user has joined the room, and there is no other encrypted room that
both users are in.  `before` is the state of the room at the token. -/
def NewlyMet (exchange : Exchange) (roomId : RoomId) (before : StateEntries)
    (userId : UserId) : Prop :=
  userId ≠ exchange.senderUser ∧
    exchange.server.BecameJoined roomId before userId ∧
    ¬ exchange.server.SharesOther exchange.senderUser userId roomId

/-- The response names everyone whose device list the client has to fetch. -/
def TracksKeys (exchange : Exchange) (before : RoomId → StateEntries)
    (response : Response) : Prop :=
  ∀ roomId ∈ exchange.server.roomsJoined exchange.senderUser,
    (exchange.server.rooms roomId).isEncrypted = true →
      (∀ userId, exchange.ChangesKeys roomId userId →
        userId ∈ response.e2ee.changed) ∧
      ∀ userId, exchange.NewlyMet roomId (before roomId) userId →
        userId ∈ response.e2ee.changed

variable {exchange : Exchange} {connections : SnakeConnections}
  {response : Response}

theorem e2ee_of_answered
    (answered : (syncEventsV5 connections exchange).2 = .ok response) :
    exchange.server.collectE2ee exchange.senderUser exchange.senderDevice
        (exchange.merged connections).1 = .ok response.e2ee := by
  unfold syncEventsV5 at answered
  split at answered
  · cases answered
  · simp only at answered
    split at answered
    · cases answered
    next collected =>
      cases answered
      exact collected

/-- The response names them exactly if each of them has a key change in a room
that is not passed over, or is seen as a newcomer. -/
theorem tracksKeys_iff (before : RoomId → StateEntries)
    (enabled : isEnabled
      (exchange.merged connections).1.extensions.e2ee = true)
    (answered : (syncEventsV5 connections exchange).2 = .ok response) :
    exchange.TracksKeys before response ↔
      ∀ roomId ∈ exchange.server.roomsJoined exchange.senderUser,
        (exchange.server.rooms roomId).isEncrypted = true →
          ∀ userId, exchange.ChangesKeys roomId userId ∨
              exchange.NewlyMet roomId (before roomId) userId →
            exchange.server.Announces exchange.senderUser
              exchange.request.globalsince userId := by
  have named : ∀ userId, userId ∈ response.e2ee.changed ↔
      exchange.server.Announces exchange.senderUser
        (exchange.merged connections).1.globalsince userId :=
    fun _ => mem_collectE2ee_changed enabled
      (e2ee_of_answered answered)
  have samePos : (exchange.merged connections).1.globalsince =
      exchange.request.globalsince := rfl
  unfold TracksKeys
  simp only [named, samePos, or_imp, forall_and]

end Exchange

namespace CarolsKeys

variable (keyChanges : List (Nat × UserId)) (recorded : Option StateEntries)

def roomWith : RoomSnapshot :=
  { ServerSnapshot.encryptedRoom keyChanges with
    tokenState := fun _ => recorded }

def serverWith : SlidingServer where
  ruma := StateRes.plainRuma
  rooms := fun _ => roomWith keyChanges recorded
  roomsJoined := fun _ => ["!r:h"]
  keychangeidUserid := fun userId => keyChanges.filter (·.2 = userId)
  details := fun _ =>
    { plainDetails with members := ["@bob:h", "@carol:h"] }
  users := fun _ => plainUser
  keyLe := fun _ _ => true

def request : Request where
  pos := some 2
  connId := none
  txnId := none
  lists := []
  roomSubscriptions := ∅
  extensions := { Extensions.default with e2ee := some true }

def exchangeWith : Exchange where
  senderUser := "@bob:h"
  senderDevice := "PHONE"
  request := request
  nextBatch := 5
  server := serverWith keyChanges recorded
  afterWait := serverWith keyChanges recorded

def known : SnakeConnections := fun _ => some .default

/-- Carol has changed her keys, and Bob's client is told. -/
theorem carol_tracked :
    let exchange := exchangeWith [(4, "@carol:h")]
      (some bobState)
    ∃ response, (syncEventsV5 known exchange).2 = .ok response ∧
      exchange.TracksKeys (fun _ => bobState) response := by
  intro exchange
  have enabled : isEnabled
      (exchange.merged known).1.extensions.e2ee = true := rfl
  obtain ⟨response, answered⟩ : ∃ response,
      (syncEventsV5 known exchange).2 = .ok response := ⟨_, rfl⟩
  refine ⟨response, answered, ?_⟩
  refine (Exchange.tracksKeys_iff _ enabled answered).mpr ?_
  intro roomId _ _ userId concerned
  have isCarol : userId = "@carol:h" := by
    rcases concerned with ⟨_, count, row, _⟩ | ⟨other, became, _⟩
    · have isRow : (count, userId) ∈ [(4, "@carol:h")] :=
        (mem_filter.mp row).1
      exact (Prod.mk.inj (mem_singleton.mp isRow)).2
    · exact eq_carol_of_becameJoined other became
  rw [isCarol]
  refine .inr ⟨"!r:h", mem_cons_self, .inl ⟨?_, 4, ?_, ?_⟩⟩
  · unfold SlidingServer.PassedOver
    decide
  · exact mem_cons_self
  · decide

/-- The state of the room is still the recorded one. -/
theorem keyChange_passedOver :
    ¬ ∀ (connections : SnakeConnections) (exchange : Exchange)
      (response : Response) (before : RoomId → StateEntries),
      exchange.request.globalsince ≠ 0 →
      isEnabled
        (exchange.merged connections).1.extensions.e2ee = true →
      (syncEventsV5 connections exchange).2 = .ok response →
        exchange.TracksKeys before response := by
  intro always
  have tracks := always known
    (exchangeWith [(4, "@carol:h")] (some carolState)) _
    (fun _ => carolState) (by decide) rfl rfl
  have named := (tracks "!r:h" mem_cons_self (by decide)).1 "@carol:h"
    ⟨by decide, 4, by decide, by decide, by decide⟩
  revert named
  decide

/-- Without a recorded state nobody is told of Carol. -/
example :
    ∃ response,
      (syncEventsV5 known (exchangeWith [] none)).2 = .ok response ∧
        ¬ (exchangeWith [] none).TracksKeys
          (fun _ => ServerSnapshot.bobState) response := by
  refine ⟨_, rfl, ?_⟩
  intro tracks
  have alone : ¬ (serverWith [] none).SharesOther "@bob:h" "@carol:h"
      "!r:h" := by
    rw [← ServerSnapshot.shareEncryptedRoom_iff]
    decide
  have named := (tracks "!r:h" List.mem_cons_self (by decide)).2 "@carol:h"
    ⟨by decide, ⟨by decide, by decide⟩, alone⟩
  revert named
  decide

end CarolsKeys

end ArcanaServer.Sync
