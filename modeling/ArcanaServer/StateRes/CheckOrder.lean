import ArcanaServer.StateRes.IterativeAuthCheck

namespace ArcanaServer.StateRes

open Library ArcanaServer.Matrix List RoomVersion AList

/-! A room whose creator sends state events that all pass the auth check, so
that the last one with a given key wins. -/

namespace TopicRoom

def creator : UserId := "@alice:a"

def roomId : RoomId := "!room"

def createPdu (roomVersion : RoomVersion) : Pdu :=
  { Pdu.message "$room" "" creator with
    roomId := if roomVersion.roomIdsAsHashes then none else some roomId,
    kind := .roomCreate, content := .obj [("creator", .str creator)],
    stateKey := some "" }

def joinPdu : Pdu :=
  { Pdu.message "$join" roomId creator with
    originServerTs := 1, kind := .roomMember,
    content := .obj [("membership", .str "join")], stateKey := some creator,
    prevEvents := ["$room"], authEvents := ["$room"] }

def topicId (index : Nat) : EventId :=
  String.ofList ('$' :: List.replicate index 't')

def topicPdu (roomVersion : RoomVersion) (topics : Nat → Bool)
    (index : Nat) : Pdu :=
  { Pdu.message (topicId index) roomId creator with
    originServerTs := 2, kind := .other "m.room.topic",
    stateKey := some (if topics index then "" else "other"),
    prevEvents := ["$join"],
    authEvents :=
      if roomVersion.roomIdsAsHashes then ["$join"] else ["$room", "$join"] }

def fetch (roomVersion : RoomVersion) (topics : Nat → Bool)
    (id : EventId) : Option Pdu :=
  let index := id.toList.length - 1
  if id = "$room" then some (createPdu roomVersion)
  else if id = "$join" then some joinPdu
  else if id = topicId index then some (topicPdu roomVersion topics index)
  else none

def store (roomVersion : RoomVersion) (topics : Nat → Bool) : EventStore where
  fetch := fetch roomVersion topics
  named := by
    intro id event found
    unfold fetch at found
    simp only at found
    split at found
    next same => cases found; exact same.symm
    · split at found
      next same => cases found; exact same.symm
      · split at found
        next same => cases found; exact same.symm
        · cases found

/-- What the Matrix library makes of the identifiers and of the content of the
create event. -/
structure ReadBy (ruma : Ruma) : Prop where
  creator : ruma.roomCreate (.obj [("creator", .str creator)]) =
    some { creator := some TopicRoom.creator }
  roomId : ruma.validRoomId roomId = true
  createId : ruma.validEventId "$room" = true

variable {ruma : Ruma} {roomVersion : RoomVersion} {topics : Nat → Bool}

theorem topicId_injective : Function.Injective topicId := by
  intro left right same
  have lists : '$' :: replicate left 't' =
      '$' :: replicate right 't' := String.ofList_injective same
  simpa using congrArg List.length lists

theorem topicId_ne_room (index : Nat) : topicId index ≠ "$room" := by
  intro same
  have lists : '$' :: replicate index 't' = ['$', 'r', 'o', 'o', 'm'] :=
    String.ofList_injective same
  cases index with
  | zero => simp at lists
  | succ index => simp [replicate_succ] at lists

theorem topicId_ne_join (index : Nat) : topicId index ≠ "$join" := by
  intro same
  have lists : '$' :: replicate index 't' = ['$', 'j', 'o', 'i', 'n'] :=
    String.ofList_injective same
  cases index with
  | zero => simp at lists
  | succ index => simp [replicate_succ] at lists

theorem fetch_room :
    (store roomVersion topics).fetch "$room" = some (createPdu roomVersion) :=
  rfl

theorem fetch_join :
    (store roomVersion topics).fetch "$join" = some joinPdu :=
  rfl

theorem fetch_topic (index : Nat) :
    (store roomVersion topics).fetch (topicId index) =
      some (topicPdu roomVersion topics index) := by
  have length : (topicId index).toList.length - 1 = index := by
    simp [topicId]
  simp only [store, fetch, topicId_ne_room, topicId_ne_join, length, if_true,
    if_false]

def authState (roomVersion : RoomVersion) : AuthState :=
  insert (.roomMember, creator) joinPdu
    (insert (.roomCreate, "") (createPdu roomVersion) ∅)

/-- A resolved state that holds nothing but topics. -/
structure OnlyTopics (state : StateMap) : Prop where
  powerLevels : state (.roomPowerLevels, "") = none
  member : state (.roomMember, creator) = none
  create : state (.roomCreate, "") = none

theorem roomIdOrHash_create (reads : ReadBy ruma) :
    roomIdOrHash ruma (createPdu roomVersion) = .ok roomId := by
  have hash : replaceChar '$' '!' "$room" = roomId := by decide
  cases hashes : roomVersion.roomIdsAsHashes with
  | false => simp [roomIdOrHash, createPdu, hashes]
  | true => simp [roomIdOrHash, createPdu, hashes, hash, reads.roomId]

theorem createAuthState_topic (reads : ReadBy ruma) (index : Nat) :
    createAuthState ruma (store roomVersion topics) roomVersion
        (topicPdu roomVersion topics index) =
      .ok (if roomVersion.roomIdsAsHashes then
        insert (.roomCreate, "") (createPdu roomVersion) ∅ else ∅) := by
  have hash : replaceChar '!' '$' roomId = "$room" := by decide
  cases hashes : roomVersion.roomIdsAsHashes with
  | false => simp [createAuthState, hashes]
  | true =>
      simp [createAuthState, hashes, roomIdOrHash, topicPdu, expectSome, hash,
        reads.createId, fetch_room, createPdu, bind, Except.bind, pure,
        Except.pure]

theorem authStateFor_topic (reads : ReadBy ruma) {state : StateMap}
    (only : OnlyTopics state) (index : Nat) (stateKey : StateKey) :
    authStateFor ruma (store roomVersion topics) roomVersion
        (store roomVersion topics).fetch state
        (topicPdu roomVersion topics index) stateKey =
      .ok (authState roomVersion) := by
  unfold authStateFor
  rw [createAuthState_topic reads]
  cases hashes : roomVersion.roomIdsAsHashes with
  | false =>
      simp [authTypesForEvent, baseAuthTypes, hashes, topicPdu, addCited, fetch_room,
        fetch_join, requireStateKey, addResolved, only.powerLevels,
        only.member, only.create, authState, bind, Except.bind, pure,
        Except.pure, joinPdu, createPdu]
  | true =>
      simp [authTypesForEvent, baseAuthTypes, hashes, topicPdu, addCited, fetch_join,
        requireStateKey, addResolved, only.powerLevels, only.member,
        authState, bind, Except.bind, pure, Except.pure, joinPdu, createPdu]

theorem lookup_create : (authState roomVersion).lookup (.roomCreate, "") =
    some (createPdu roomVersion) := by
  unfold authState
  rw [lookup_insert_ne (by decide), lookup_insert]

theorem lookup_powerLevels :
    (authState roomVersion).lookup (.roomPowerLevels, "") = none := by
  unfold authState
  rw [lookup_insert_ne (by decide), lookup_insert_ne (by decide),
    lookup_empty]

theorem lookup_member :
    (authState roomVersion).lookup (.roomMember, creator) = some joinPdu := by
  unfold authState
  rw [lookup_insert]

def createContent : RoomCreateContentFields where
  roomVersion := none
  creator := some (.str creator)
  additionalCreators := none
  federate := true

section

variable (reads : ReadBy ruma)
include reads

theorem senderPowerLevel_topic (roomVersion : RoomVersion) :
    ∃ level, senderPowerLevel ruma roomVersion createContent none
      (createPdu roomVersion) creator = .ok level ∧ 50 ≤ level := by
  have listed : listedSenderLevel ruma roomVersion none
      (createPdu roomVersion) creator = .ok 100 := by
    cases sent : roomVersion.useRoomCreateSender with
    | true =>
        simp [listedSenderLevel, sentByCreator, sent, createPdu, bind,
          Except.bind, pure, Except.pure]
    | false =>
        simp [listedSenderLevel, sentByCreator, sent, createPdu,
          reads.creator, expectSome, bind, Except.bind, pure, Except.pure]
  unfold senderPowerLevel
  rw [listed]
  simp only [bind, Except.bind, pure, Except.pure]
  split
  · exact ⟨maxInt, rfl, by decide⟩
  · exact ⟨100, rfl, by decide⟩

theorem checkLevels_topic (index : Nat) :
    checkLevels ruma roomVersion createContent
      (topicPdu roomVersion topics index) none (createPdu roomVersion) =
        .ok true := by
  obtain ⟨level, levelResult, enough⟩ :=
    senderPowerLevel_topic reads roomVersion
  have sendable : canSendEvent ruma (topicPdu roomVersion topics index) none
      level = true := by
    have below : ¬ level < 50 := by omega
    cases chosen : topics index <;>
      simp [canSendEvent, getSendLevel, topicPdu, below, chosen]
  have sender : (topicPdu roomVersion topics index).sender = creator := rfl
  unfold checkLevels
  rw [sender, levelResult]
  simp only [bind, Except.bind, sendable]
  simp [topicPdu, checkRoomPowerLevels, checkRoomRedaction]

theorem authCheck_topic (index : Nat) (thirdParty : Option Pdu) :
    authCheck ruma roomVersion (topicPdu roomVersion topics index) thirdParty
        (fun kind key => (authState roomVersion).lookup (kind, key))
        (createPdu roomVersion) = .ok true := by
  have content : RoomCreateContentFields.decode
      (createPdu roomVersion).content = some createContent := rfl
  have membership : RoomMemberContentFields.decode joinPdu.content = some {
      membership := some (.str "join")
      thirdPartyInvite := none
      joinAuthorisedViaUsersServer := none } := rfl
  have joined : checkJoinedSender ruma roomVersion createContent roomId
      (topicPdu roomVersion topics index)
      (fun kind key => (authState roomVersion).lookup (kind, key))
      (createPdu roomVersion) = .ok true := by
    have sender : (topicPdu roomVersion topics index).sender = creator := rfl
    unfold checkJoinedSender
    rw [sender]
    simp only [lookup_member, lookup_powerLevels, membership,
      checkLevels_topic reads]
    rfl
  have claims : (topicPdu roomVersion topics index).authEvents.contains
      (createPdu roomVersion).eventId = !roomVersion.roomIdsAsHashes := by
    cases hashes : roomVersion.roomIdsAsHashes <;>
      simp [topicPdu, createPdu, hashes]
  have room : (topicPdu roomVersion topics index).roomId = some roomId := rfl
  have byKind : checkByKind ruma roomVersion createContent roomId
      (topicPdu roomVersion topics index) thirdParty
      (fun kind key => (authState roomVersion).lookup (kind, key))
      (createPdu roomVersion) = .ok true := by
    unfold checkByKind
    rw [joined]
    simp [createContent, topicPdu]
  unfold authCheck
  rw [content, roomIdOrHash_create reads, room, claims]
  simp only [orSerde, bind, Except.bind, expectSome, lookup_powerLevels,
    powerLevelsElsewhere, byKind]
  cases hashes : roomVersion.roomIdsAsHashes <;>
    simp [topicPdu, createContent, RoomCreateContentFields.unsupportedVersion]

/-- Every topic passes, whatever other topics were applied before. -/
theorem checkEvent_topic {state : StateMap} (only : OnlyTopics state)
    (order : EventId → HashOrder) (index : Nat) :
    checkEvent ruma (store roomVersion topics) roomVersion order
        (store roomVersion topics).fetch state
        (topicPdu roomVersion topics index) =
      .ok (Function.update state
        (.other "m.room.topic", if topics index then "" else "other")
        (some (topicId index))) := by
  have key : requireStateKey (topicPdu roomVersion topics index) =
      .ok (if topics index then "" else "other") := rfl
  have passes : ∀ stateKey, passesAuthCheck ruma (store roomVersion topics)
      roomVersion order (store roomVersion topics).fetch state
      (topicPdu roomVersion topics index) stateKey = .ok true := by
    intro stateKey
    unfold passesAuthCheck
    rw [authStateFor_topic reads only]
    simp only [bind, Except.bind, lookup_create, expectSome]
    exact authCheck_topic reads index _
  unfold checkEvent
  rw [key]
  simp only [bind, Except.bind, passes]
  rfl

theorem foldlM_topics (order : EventId → HashOrder) :
    ∀ (indices : List Nat) (state : StateMap), OnlyTopics state → ∃ final,
        (indices.map (topicPdu roomVersion topics)).foldlM
            (checkEvent ruma (store roomVersion topics) roomVersion order
              (store roomVersion topics).fetch) state = .ok final ∧
          final (.other "m.room.topic", "") =
            ((indices.filter topics).getLast?.map topicId).or
              (state (.other "m.room.topic", "")) := by
  intro indices
  induction indices with
  | nil => intro state only; exact ⟨state, rfl, rfl⟩
  | cons index rest ih =>
      intro state only
      let next := Function.update state
        (.other "m.room.topic", if topics index then "" else "other")
        (some (topicId index))
      have onlyNext : OnlyTopics next := by
        refine ⟨?_, ?_, ?_⟩
        · exact (Function.update_of_ne (by simp) _ _).trans only.powerLevels
        · exact (Function.update_of_ne (by simp) _ _).trans only.member
        · exact (Function.update_of_ne (by simp) _ _).trans only.create
      obtain ⟨final, result, last⟩ := ih next onlyNext
      refine ⟨final, ?_, ?_⟩
      · rw [map_cons, foldlM_cons, checkEvent_topic reads only order index]
        exact result
      · rw [last]
        cases chosen : topics index with
        | false => simp [next, chosen]
        | true =>
            cases later : (rest.filter topics).getLast? with
            | none =>
                have empty : rest.filter topics = [] :=
                  getLast?_eq_none_iff.mp later
                simp [next, chosen, empty]
            | some winner =>
                have longer : (index :: rest.filter topics).getLast? =
                    some winner := by
                  rw [getLast?_cons, later]
                  rfl
                simp [chosen, longer]

theorem sequentialAuthCheck_topics (order : EventId → HashOrder)
    (indices : List Nat) :
    ∃ final,
      sequentialAuthCheck ruma (store roomVersion topics) roomVersion order
          (indices.map topicId) (fun _ => none) = .ok final ∧
        final (.other "m.room.topic", "") =
          (indices.filter topics).getLast?.map topicId := by
  have fetched : (indices.map topicId).mapM
      (fetchOrNotFound (store roomVersion topics)) =
        .ok (indices.map (topicPdu roomVersion topics)) := by
    induction indices with
    | nil => rfl
    | cons index rest ih =>
        rw [map_cons, mapM_cons, ih]
        simp only [fetchOrNotFound, fetch_topic]
        rfl
  obtain ⟨final, result, last⟩ := foldlM_topics reads order indices
    (fun _ => none) ⟨rfl, rfl, rfl⟩
  refine ⟨final, ?_, by simpa using last⟩
  unfold sequentialAuthCheck
  rw [fetched]
  exact result

end

end TopicRoom

variable {ruma : Ruma}

/-- For every sequence of `count` events and every starting state, the check
returns the fold in the order of the caller. -/
def FollowsCaller (ruma : Ruma) (roomVersion : RoomVersion)
    (orders : CheckOrders) (count : Nat) : Prop :=
  ∀ (store : EventStore) (eventsToCheck : List EventId) (state : StateMap),
    eventsToCheck.length = count → ∀ final,
      iterativeAuthCheck ruma store roomVersion orders eventsToCheck state =
          .ok final ↔
        sequentialAuthCheck ruma store roomVersion orders.authState
          eventsToCheck state = .ok final

theorem followsCaller_of_inOrder {roomVersion : RoomVersion}
    {orders : CheckOrders} {count : Nat}
    (ordered : orders.fetches.InOrder count) :
    FollowsCaller ruma roomVersion orders count := by
  intro store eventsToCheck state length final
  rw [iterativeAuthCheck_eq, Completion.InOrder.bufferUnordered_eq]
  rw [length]
  exact ordered

/-- With the fetches completing in any order but that of the caller, there are
events for which the check does not return the fold in the caller's order. -/
theorem inOrder_of_followsCaller (reads : TopicRoom.ReadBy ruma)
    {roomVersion : RoomVersion} {orders : CheckOrders} {count : Nat}
    (follows : FollowsCaller ruma roomVersion orders count) :
    orders.fetches.InOrder count := by
  by_contra shuffled
  let arrived := orders.fetches.bufferUnordered (range count)
  have perm : arrived.Perm (range count) :=
    orders.fetches.bufferUnordered_perm _
  obtain ⟨early, late, below, sublist⟩ := exists_swapped perm shuffled
  let topics : Nat → Bool := fun item => item = early ∨ item = late
  have inside : late < count :=
    mem_range.mp (perm.mem_iff.mp (sublist.subset (by simp)))
  have nodup : arrived.Nodup := perm.nodup_iff.mpr nodup_range
  have called : (range count).filter topics = [early, late] :=
    filter_pair_eq nodup_range (pair_sublist_range below inside)
  have completed : arrived.filter topics = [late, early] := by
    rw [← filter_pair_eq nodup sublist]
    apply filter_congr
    intro item _
    simp [topics, or_comm]
  obtain ⟨expected, expectedRun, expectedTopic⟩ :=
    TopicRoom.sequentialAuthCheck_topics reads orders.authState (range count)
  obtain ⟨final, finalRun, finalTopic⟩ :=
    TopicRoom.sequentialAuthCheck_topics reads orders.authState arrived
  have same := follows (TopicRoom.store roomVersion topics)
    ((range count).map TopicRoom.topicId) (fun _ => none) (by simp) final
  rw [iterativeAuthCheck_eq, Completion.bufferUnordered_map, expectedRun]
    at same
  have sameState : expected = final := Except.ok.inj (same.mp finalRun)
  rw [← sameState, expectedTopic, called, completed] at finalTopic
  have sameId : TopicRoom.topicId late = TopicRoom.topicId early := by
    simpa using finalTopic
  exact below.ne' (TopicRoom.topicId_injective sameId)

theorem followsCaller_iff_inOrder (reads : TopicRoom.ReadBy ruma)
    (roomVersion : RoomVersion) (orders : CheckOrders) (count : Nat) :
    FollowsCaller ruma roomVersion orders count ↔
      orders.fetches.InOrder count :=
  ⟨inOrder_of_followsCaller reads, followsCaller_of_inOrder⟩

theorem plainRuma_reads : TopicRoom.ReadBy plainRuma where
  creator := rfl
  roomId := by decide
  createId := by decide

def ordersOf (fetches : Completion) : CheckOrders where
  fetches := fetches
  authEventIds := HashOrder.inserted
  authFetches := Completion.oldestFirst 32 width_positive
  authState := fun _ => HashOrder.inserted

def newestFirst : Completion where
  width := 32
  positive := width_positive
  pick := id

theorem oldestFirst_followsCaller : TopicRoom.ReadBy plainRuma ∧
      FollowsCaller plainRuma v11
        (ordersOf (Completion.oldestFirst 32 width_positive)) 2 :=
  ⟨plainRuma_reads,
    (followsCaller_iff_inOrder plainRuma_reads _ _ _).mpr (by decide)⟩

theorem newestFirst_topics : (iterativeAuthCheck plainRuma
        (TopicRoom.store v11 (fun _ => true)) v11
        (ordersOf newestFirst) ["$", "$t"] (fun _ => none)).map
          (fun final => final (.other "m.room.topic", "")) =
        .ok (some "$") ∧
      (sequentialAuthCheck plainRuma
        (TopicRoom.store v11 (fun _ => true)) v11
        (ordersOf newestFirst).authState ["$", "$t"] (fun _ => none)).map
          (fun final => final (.other "m.room.topic", "")) =
        .ok (some "$t") := by
  constructor
  · rfl
  · rfl

theorem newestFirst_not_sequential : ¬ ∀ final, iterativeAuthCheck plainRuma
          (TopicRoom.store v11 (fun _ => true)) v11
          (ordersOf newestFirst) ["$", "$t"] (fun _ => none) = .ok final ↔
        sequentialAuthCheck plainRuma
          (TopicRoom.store v11 (fun _ => true)) v11
          (ordersOf newestFirst).authState ["$", "$t"] (fun _ => none) =
            .ok final := by
  intro same
  obtain ⟨checked, expected⟩ := newestFirst_topics
  cases run : iterativeAuthCheck plainRuma
      (TopicRoom.store v11 (fun _ => true)) v11
      (ordersOf newestFirst) ["$", "$t"] (fun _ => none) with
  | error failure =>
      rw [run] at checked
      cases checked
  | ok final =>
      rw [run] at checked
      rw [(same final).mp run] at expected
      have topic : final (.other "m.room.topic", "") = some "$" :=
        Except.ok.inj checked
      have other : final (.other "m.room.topic", "") = some "$t" :=
        Except.ok.inj expected
      rw [topic] at other
      exact absurd other (by decide)

end ArcanaServer.StateRes
