import ArcanaServer.Library.LruCache
import ArcanaServer.Library.Trace
import ArcanaServer.Matrix.Content
import Mathlib.Algebra.Group.Nat.Defs

namespace ArcanaServer.Rooms.Spaces

open Library ArcanaServer.Matrix LruCache List

abbrev SpaceRoomJoinRule := JoinRule

structure HierarchySpaceChildEvent where
  content : Json
  originServerTs : Nat
  sender : UserId
  stateKey : Option StateKey

structure SpaceHierarchyChildSummary where
  canonicalAlias : Option String
  name : Option String
  numJoinedMembers : Nat
  roomId : RoomId
  topic : Option String
  worldReadable : Bool
  guestCanJoin : Bool
  avatarUrl : Option String
  joinRule : SpaceRoomJoinRule
  roomType : Option String
  allowedRoomIds : List RoomId
  encryption : Option String
  roomVersion : Option String

/-- The summary of a space has the fields of a child and its children. -/
structure SpaceHierarchyParentSummary extends SpaceHierarchyChildSummary where
  childrenState : List HierarchySpaceChildEvent

structure CachedSpaceHierarchySummary where
  summary : SpaceHierarchyParentSummary

inductive SummaryAccessibility where
  | accessible (summary : SpaceHierarchyParentSummary)
  | inaccessible

inductive Identifier where
  | userId (userId : UserId)
  | serverName (serverName : ServerName)

abbrev Cache := LruCache RoomId (Option CachedSpaceHierarchySummary)

structure HierarchyResponse where
  room : SpaceHierarchyParentSummary
  children : List SpaceHierarchyChildSummary

structure Services where
  stateKeysWithIds : RoomId → List (StateKey × EventId)
  getPdu : EventId → Option Pdu
  childVia : Json → Option (List ServerName)
  isRoomId : String → Bool
  aclCheck : ServerName → RoomId → Bool
  isJoined : UserId → RoomId → Bool
  isInvited : UserId → RoomId → Bool
  joinedAnswersFirst : Bool
  serverInRoom : ServerName → RoomId → Bool
  joinRule : RoomId → JoinRule
  allowedRooms : RoomId → List RoomId
  getName : RoomId → Option String
  getRoomTopic : RoomId → Option String
  getRoomType : RoomId → Option String
  isWorldReadable : RoomId → Bool
  guestCanJoin : RoomId → Bool
  roomJoinedCount : RoomId → Option Nat
  getCanonicalAlias : RoomId → Option String
  getAvatar : RoomId → Option String
  getRoomVersion : RoomId → Option String
  getRoomEncryption : RoomId → Option String

def uintMax : Nat := 2 ^ 53 - 1

namespace Services

variable (services : Services)

def getSpaceChildEvents (roomId : RoomId) : List HierarchySpaceChildEvent :=
  (services.stateKeysWithIds roomId).filterMap fun (stateKey, eventId) => do
    let pdu ← services.getPdu eventId
    let via ← services.childVia pdu.content
    let child : HierarchySpaceChildEvent :=
      { content := pdu.content
        originServerTs := pdu.originServerTs
        sender := pdu.sender
        stateKey := pdu.stateKey }
    if via.isEmpty || !services.isRoomId stateKey then none else some child

/-- The first of the two lookups that ends decides. -/
def joinedOrInvited (userId : UserId) (roomId : RoomId) : Bool :=
  if services.joinedAnswersFirst then services.isJoined userId roomId
  else services.isInvited userId roomId

def isAccessibleChild (currentRoom : RoomId) (joinRule : SpaceRoomJoinRule)
    (identifier : Identifier) (allowedRooms : List RoomId) : Bool :=
  let byRule : Bool :=
    match joinRule with
    | .publicRoom | .knock | .knockRestricted => true
    | .restricted => allowedRooms.any fun room =>
        match identifier with
        | .userId user => services.isJoined user room
        | .serverName server => services.serverInRoom server room
    | _ => false
  match identifier with
  | .serverName serverName => services.aclCheck serverName currentRoom && byRule
  | .userId userId => services.joinedOrInvited userId currentRoom || byRule

def getRoomSummary (roomId : RoomId)
    (childrenState : List HierarchySpaceChildEvent) (identifier : Identifier) :
    Except String SpaceHierarchyParentSummary :=
  let joinRule := services.joinRule roomId
  let allowedRooms := services.allowedRooms roomId
  if !services.isAccessibleChild roomId joinRule identifier allowedRooms then
    .error "User is not allowed to see the room"
  else
    let joined := (services.roomJoinedCount roomId).getD 0
    .ok
      { canonicalAlias := services.getCanonicalAlias roomId
        name := services.getName roomId
        topic := services.getRoomTopic roomId
        worldReadable := services.isWorldReadable roomId
        guestCanJoin := services.guestCanJoin roomId
        avatarUrl := services.getAvatar roomId
        roomType := services.getRoomType roomId
        childrenState
        encryption := services.getRoomEncryption roomId
        roomVersion := services.getRoomVersion roomId
        roomId
        numJoinedMembers := if joined ≤ uintMax then joined else 0
        allowedRoomIds := allowedRooms
        joinRule }

def accessibility (currentRoom : RoomId) (identifier : Identifier)
    (summary : SpaceHierarchyParentSummary) : SummaryAccessibility :=
  if services.isAccessibleChild currentRoom summary.joinRule identifier
      summary.allowedRoomIds then
    .accessible summary
  else .inaccessible

def cacheInsert (cache : Cache) (currentRoom : RoomId)
    (child : SpaceHierarchyChildSummary) : Cache :=
  let summary : SpaceHierarchyParentSummary :=
    { child with
      childrenState := services.getSpaceChildEvents child.roomId }
  cache.insert currentRoom (some { summary })

end Services

/-! A call stops at each access to the cache and at each request, and other
calls may come in there. -/

inductive Purpose where
  | onlyLocal (identifier : Identifier)
  | client (userId : UserId) (via : List ServerName)

namespace Purpose

def identifier : Purpose → Identifier
  | .onlyLocal identifier => identifier
  | .client userId _ => .userId userId

def via : Purpose → List ServerName
  | .onlyLocal _ => []
  | .client _ via => via

end Purpose

inductive Stage where
  | lookup
  | readChildren
  | summarise (childrenState : List HierarchySpaceChildEvent)
  | storeLocal (summary : SpaceHierarchyParentSummary)
  | request
  | storeNone
  | storeRoom (response : HierarchyResponse)
  | storeChildren (summary : SpaceHierarchyParentSummary)
      (children : List SpaceHierarchyChildSummary)
  | answer (summary : SpaceHierarchyParentSummary)

structure SummaryCall where
  currentRoom : RoomId
  purpose : Purpose
  stage : Stage

inductive Progress where
  | continues (stage : Stage)
  | returns (answer : Option SummaryAccessibility)

/-- Only a client's call goes on where the local summary is missing. -/
def Purpose.withoutLocal : Purpose → Progress
  | .onlyLocal _ => .returns none
  | .client _ _ => .continues .request

def SummaryCall.advance (call : SummaryCall) (services : Services)
    (completed : Option HierarchyResponse) (cache : Cache) :
    Cache × Progress :=
  let currentRoom := call.currentRoom
  let identifier := call.purpose.identifier
  match call.stage with
  | .lookup =>
      let (cached, cache) := cache.getMut currentRoom
      match cached with
      | none => (cache, .continues .readChildren)
      | some none => (cache, call.purpose.withoutLocal)
      | some (some cached) =>
          (cache, .returns (some
            (services.accessibility currentRoom identifier cached.summary)))
  | .readChildren =>
      (cache, .continues
        (.summarise (services.getSpaceChildEvents currentRoom)))
  | .summarise childrenState =>
      match services.getRoomSummary currentRoom childrenState identifier with
      | .error _ => (cache, call.purpose.withoutLocal)
      | .ok summary => (cache, .continues (.storeLocal summary))
  | .storeLocal summary =>
      (cache.insert currentRoom (some { summary }),
        .returns (some (.accessible summary)))
  | .request =>
      match call.purpose.via, completed with
      | _ :: _, some response => (cache, .continues (.storeRoom response))
      | _, _ => (cache, .continues .storeNone)
  | .storeNone => (cache.insert currentRoom none, .returns none)
  | .storeRoom response =>
      (cache.insert currentRoom (some { summary := response.room }),
        .continues (.storeChildren response.room response.children))
  | .storeChildren summary [] => (cache, .continues (.answer summary))
  | .storeChildren summary (child :: rest) =>
      let (known, cache) := cache.containsKey currentRoom
      (if known then cache else services.cacheInsert cache currentRoom child,
        .continues (.storeChildren summary rest))
  | .answer summary =>
      (cache, .returns (some
        (services.accessibility currentRoom identifier summary)))

structure State where
  cache : Cache
  calls : List SummaryCall

def State.initial (capacity : Nat) : State where
  cache := { capacity, entries := [] }
  calls := []

/-- A new event `m.space.child` removes its room from the cache. -/
inductive Action where
  | begin (currentRoom : RoomId) (purpose : Purpose)
  | advance (index : Nat) (services : Services)
      (completed : Option HierarchyResponse)
  | remove (roomId : RoomId)
  | clear

/-- The answers are those of the calls that return. -/
def step (state : State) : Action → State × Option (Option SummaryAccessibility)
  | .begin currentRoom purpose =>
      let call : SummaryCall := { currentRoom, purpose, stage := .lookup }
      ({ state with calls := state.calls ++ [call] }, none)
  | .advance index services completed =>
      match state.calls[index]? with
      | none => (state, none)
      | some call =>
          match call.advance services completed state.cache with
          | (cache, .continues stage) =>
              ({ cache, calls := state.calls.set index { call with stage } },
                none)
          | (cache, .returns answer) =>
              ({ cache, calls := state.calls.eraseIdx index }, some answer)
  | .remove roomId => ({ state with cache := state.cache.remove roomId }, none)
  | .clear => ({ state with cache := state.cache.clear }, none)

/-! Which room the cached summaries are about, whatever the servers answer and
in whatever order the calls make their steps. -/

def OwnSummary (room : RoomId) (cached : Option CachedSpaceHierarchySummary) :
    Prop :=
  ∀ inside, cached = some inside → inside.summary.roomId = room

def Own (cache : Cache) : Prop := cache.Holds OwnSummary

namespace SummaryCall

def StoresForeign (call : SummaryCall) (cache : Cache) : Prop :=
  cache.capacity ≠ 0 ∧
    match call.stage with
    | .storeRoom response => response.room.roomId ≠ call.currentRoom
    | .storeChildren _ (child :: _) =>
        cache.entries.lookup call.currentRoom = none ∧
          child.roomId ≠ call.currentRoom
    | _ => False

instance (call : SummaryCall) (cache : Cache) :
    Decidable (call.StoresForeign cache) := by
  unfold StoresForeign
  split <;> infer_instance

/-- A summary that the server made itself is about the requested room. -/
def Sound (call : SummaryCall) : Prop :=
  match call.stage with
  | .storeLocal summary => summary.roomId = call.currentRoom
  | _ => True

end SummaryCall

def StoresForeign (state : State) : Action → Prop
  | .advance index _ _ =>
      match state.calls[index]? with
      | none => False
      | some call => call.StoresForeign state.cache
  | _ => False

instance (state : State) (action : Action) :
    Decidable (StoresForeign state action) := by
  unfold StoresForeign
  split
  · split <;> infer_instance
  · infer_instance

section

variable {cache : Cache} {room : RoomId}
  {inside : CachedSpaceHierarchySummary}

theorem ownSummary_some :
    OwnSummary room (some inside) ↔ inside.summary.roomId = room := by
  constructor
  · intro own
    exact own inside rfl
  · intro same other isInside
    cases isInside
    exact same

theorem own_insert (own : Own cache)
    (same : cache.capacity ≠ 0 → inside.summary.roomId = room) :
    Own (cache.insert room (some inside)) := by
  by_cases full : cache.capacity = 0
  · exact laws.holds_insert_of_full full room (some inside)
  · exact own.insert (ownSummary_some.mpr (same full))

theorem not_own_insert (places : cache.capacity ≠ 0)
    (differs : inside.summary.roomId ≠ room) :
    ¬ Own (cache.insert room (some inside)) := by
  intro own
  exact differs (ownSummary_some.mp
    (own _ (laws.mem_insert cache room (some inside) places)))

theorem containsKey_fst :
    (cache.containsKey room).1 = (cache.entries.lookup room).isSome := by
  unfold containsKey getMut
  split
  next found => rw [found]
  next absent => rw [absent]

end

section

variable {call : SummaryCall} {services : Services}
  {completed : Option HierarchyResponse} {cache : Cache}

theorem getRoomSummary_roomId {room : RoomId}
    {childrenState : List HierarchySpaceChildEvent} {identifier : Identifier}
    {summary : SpaceHierarchyParentSummary}
    (made : services.getRoomSummary room childrenState identifier =
      .ok summary) : summary.roomId = room := by
  unfold Services.getRoomSummary at made
  dsimp only at made
  split at made
  · cases made
  · cases made
    rfl

theorem sound_of_withoutLocal {stage : Stage}
    (goesOn : call.purpose.withoutLocal = .continues stage) :
    SummaryCall.Sound { call with stage } := by
  cases isFor : call.purpose with
  | onlyLocal identifier =>
      rw [isFor] at goesOn
      cases goesOn
  | client userId via =>
      rw [isFor] at goesOn
      cases goesOn
      trivial

theorem advance_sound {stage : Stage}
    (goesOn : (call.advance services completed cache).2 = .continues stage) :
    SummaryCall.Sound { call with stage } := by
  unfold SummaryCall.advance at goesOn
  cases isAt : call.stage with
  | lookup =>
      simp only [isAt] at goesOn
      split at goesOn
      · cases goesOn
        trivial
      · exact sound_of_withoutLocal goesOn
      · cases goesOn
  | summarise childrenState =>
      simp only [isAt] at goesOn
      split at goesOn
      · exact sound_of_withoutLocal goesOn
      next made =>
        cases goesOn
        exact getRoomSummary_roomId made
  | request =>
      simp only [isAt] at goesOn
      split at goesOn <;> cases goesOn <;> trivial
  | storeChildren summary children =>
      cases children <;> simp only [isAt] at goesOn <;> cases goesOn <;> trivial
  | readChildren | storeRoom =>
      simp only [isAt] at goesOn
      cases goesOn
      trivial
  | storeLocal | storeNone | answer =>
      simp only [isAt] at goesOn
      cases goesOn

theorem advance_own (sound : call.Sound) (own : Own cache)
    (allowed : ¬ call.StoresForeign cache) :
    Own (call.advance services completed cache).1 := by
  unfold SummaryCall.advance
  cases isAt : call.stage with
  | lookup =>
      have refreshed : Own (cache.getMut call.currentRoom).2 :=
        (own.getMut call.currentRoom).2
      dsimp only
      split <;> exact refreshed
  | readChildren | answer => exact own
  | summarise childrenState =>
      dsimp only
      split <;> exact own
  | storeLocal summary =>
      rw [SummaryCall.Sound, isAt] at sound
      exact own_insert own (fun _ => sound)
  | request =>
      dsimp only
      split <;> exact own
  | storeNone =>
      apply LruCache.Holds.insert own
      intro inside impossible
      cases impossible
  | storeRoom response =>
      rw [SummaryCall.StoresForeign, isAt] at allowed
      apply own_insert own
      intro places
      by_contra differs
      exact allowed ⟨places, differs⟩
  | storeChildren summary children =>
      cases children with
      | nil => exact own
      | cons child rest =>
          rw [SummaryCall.StoresForeign, isAt] at allowed
          have refreshed : Own (cache.containsKey call.currentRoom).2 :=
            (own.getMut call.currentRoom).2
          dsimp only
          split
          · exact refreshed
          next unknown =>
            rw [containsKey_fst, Option.not_isSome_iff_eq_none] at unknown
            apply own_insert refreshed
            intro places
            by_contra differs
            have places : cache.capacity ≠ 0 :=
              (laws.capacity_getMut cache call.currentRoom).symm.trans_ne places
            exact allowed ⟨places, unknown, differs⟩

theorem advance_foreign (foreign : call.StoresForeign cache) :
    ¬ Own (call.advance services completed cache).1 := by
  obtain ⟨places, stored⟩ := foreign
  unfold SummaryCall.advance
  cases isAt : call.stage with
  | storeRoom response =>
      rw [isAt] at stored
      exact not_own_insert places stored
  | storeChildren summary children =>
      rw [isAt] at stored
      cases children with
      | nil => exact absurd stored id
      | cons child rest =>
          obtain ⟨absent, differs⟩ := stored
          have unknown : (cache.containsKey call.currentRoom).1 = false := by
            rw [containsKey_fst, absent]
            rfl
          dsimp only
          rw [unknown]
          apply not_own_insert _ differs
          exact (laws.capacity_getMut cache call.currentRoom).trans_ne places
  | lookup | readChildren | summarise | storeLocal | request | storeNone
  | answer =>
      rw [isAt] at stored
      exact absurd stored id

end

section

variable {state : State} {action : Action}

theorem step_sound (sound : ∀ call ∈ state.calls, call.Sound) :
    ∀ call ∈ (step state action).1.calls, call.Sound := by
  cases action with
  | begin currentRoom purpose =>
      exact forall_mem_snoc sound trivial
  | advance index services completed =>
      unfold step
      dsimp only
      split
      · exact sound
      next call found =>
        split
        next cache stage advanced =>
          intro other member
          rcases mem_or_eq_of_mem_set member with earlier | moved
          · exact sound other earlier
          · subst moved
            exact advance_sound (congrArg Prod.snd advanced)
        · intro other member
          exact sound other (mem_of_mem_eraseIdx member)
  | remove roomId | clear => exact sound

theorem cache_step_advance {index : Nat} {services : Services}
    {completed : Option HierarchyResponse} {call : SummaryCall}
    (found : state.calls[index]? = some call) :
    (step state (.advance index services completed)).1.cache =
      (call.advance services completed state.cache).1 := by
  unfold step
  dsimp only
  rw [found]
  dsimp only
  split
  next advanced => rw [advanced]
  next advanced => rw [advanced]

theorem step_own_iff (sound : ∀ call ∈ state.calls, call.Sound)
    (own : Own state.cache) :
    Own (step state action).1.cache ↔ ¬ StoresForeign state action := by
  cases action with
  | begin currentRoom purpose => exact iff_of_true own id
  | remove roomId => exact iff_of_true (own.remove roomId) id
  | clear => exact iff_of_true laws.holds_clear id
  | advance index services completed =>
      cases found : state.calls[index]? with
      | none =>
          have stays : (step state (.advance index services completed)).1 =
              state := by
            unfold step
            dsimp only
            rw [found]
          rw [stays]
          apply iff_of_true own
          rw [StoresForeign, found]
          exact id
      | some call =>
          have member : call ∈ state.calls := mem_of_getElem? found
          have advances : StoresForeign state
              (.advance index services completed) ↔
                call.StoresForeign state.cache := by
            rw [StoresForeign, found]
          rw [cache_step_advance found, advances]
          constructor
          · intro stays foreign
            exact advance_foreign foreign stays
          · exact advance_own (sound call member) own

end

section

variable {capacity : Nat}
  {history : List (Entry State Action (Option (Option SummaryAccessibility)))}
  {state : State}
  (reaches : Reaches step (State.initial capacity) history state)
include reaches

theorem Reaches.sound : ∀ call ∈ state.calls, call.Sound := by
  induction reaches with
  | start =>
      intro call impossible
      cases impossible
  | next action _ ih => exact step_sound ih

/-- The cached summaries are about their rooms, in all states of a run, exactly
if no step of the run stores the summary of another room. -/
theorem summariesOwn_iff :
    ((∀ entry ∈ history, Own entry.before.cache) ∧ Own state.cache) ↔
      ∀ entry ∈ history, ¬ StoresForeign entry.before entry.input := by
  induction reaches with
  | start =>
      apply iff_of_true
      · constructor
        · exact fun entry impossible => absurd impossible not_mem_nil
        · exact fun entry impossible => absurd impossible not_mem_nil
      · exact fun entry impossible => absurd impossible not_mem_nil
  | @next history state action earlier ih =>
      have last : Own state.cache → (Own (step state action).1.cache ↔
            ¬ StoresForeign state action) :=
        step_own_iff (Reaches.sound earlier)
      simp only [mem_append, mem_singleton, or_imp, forall_and,
        forall_eq, entryOf]
      rw [← ih]
      constructor
      · rintro ⟨⟨before, own⟩, after⟩
        exact ⟨⟨before, own⟩, (last own).mp after⟩
      · rintro ⟨⟨before, own⟩, allowed⟩
        exact ⟨⟨before, own⟩, (last own).mpr allowed⟩

end

namespace OneServer

def quiet : Services where
  stateKeysWithIds _ := []
  getPdu _ := none
  childVia _ := none
  isRoomId _ := true
  aclCheck _ _ := true
  isJoined _ _ := false
  isInvited _ _ := false
  joinedAnswersFirst := true
  serverInRoom _ _ := false
  joinRule _ := .invite
  allowedRooms _ := []
  getName _ := none
  getRoomTopic _ := none
  getRoomType _ := none
  isWorldReadable _ := false
  guestCanJoin _ := false
  roomJoinedCount _ := none
  getCanonicalAlias _ := none
  getAvatar _ := none
  getRoomVersion _ := none
  getRoomEncryption _ := none

def summaryOf (roomId : RoomId) (name : String) :
    SpaceHierarchyChildSummary where
  canonicalAlias := none
  name := some name
  numJoinedMembers := 1
  roomId
  topic := none
  worldReadable := true
  guestCanJoin := false
  avatarUrl := none
  joinRule := .publicRoom
  roomType := none
  allowedRoomIds := []
  encryption := none
  roomVersion := none

def response (roomId : RoomId) : HierarchyResponse where
  room := { summaryOf roomId "Answer" with childrenState := [] }
  children := [summaryOf "!child:far" "Child"]

def advances (answer : HierarchyResponse) : Action :=
  .advance 0 quiet (some answer)

def runWith (answer : HierarchyResponse) (steps : Nat) :
    List (Entry State Action (Option (Option SummaryAccessibility))) × State :=
  run step (State.initial 8)
    (.begin "!space:far" (.client "@alice:home" ["far"]) ::
      List.replicate steps (advances answer))

theorem summariesOwn_honest :
    (∀ entry ∈ (runWith (response "!space:far") 8).1,
        Own entry.before.cache) ∧
      Own (runWith (response "!space:far") 8).2.cache :=
  (summariesOwn_iff (reaches_run _ _ _)).mpr (by decide +kernel)

theorem summary_of_other_room : ¬ ∀ (capacity : Nat)
      (history : List (Entry State Action
        (Option (Option SummaryAccessibility))))
      (state : State),
      Reaches step (State.initial capacity) history state →
        Own state.cache := by
  intro always
  have own : Own (runWith (response "!home:home") 5).2.cache :=
    always 8 _ _ (reaches_run _ _ _)
  have stored : (runWith (response "!home:home") 5).2.cache.entries =
      [("!space:far", some { summary := (response "!home:home").room })] := rfl
  have same : "!home:home" = "!space:far" :=
    ownSummary_some.mp (own _ (by rw [stored]; exact mem_cons_self))
  exact absurd same (by decide)

/-- An honest answer is enough where an event removes the room in between. -/
example :
    let later := run step (runWith (response "!space:far") 5).2
      [.remove "!space:far", advances (response "!space:far")]
    later.2.cache.entries.map
        (fun entry => (entry.1, entry.2.map (·.summary.roomId))) =
      [("!space:far", some "!child:far")] := rfl

end OneServer

end ArcanaServer.Rooms.Spaces
