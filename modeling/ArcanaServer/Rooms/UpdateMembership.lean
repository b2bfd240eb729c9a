import ArcanaServer.Matrix.Content
import ArcanaServer.Rooms.Standing
import ArcanaServer.Rooms.StateHistory

namespace ArcanaServer.Rooms

open Library ArcanaServer.Matrix StateCache

/-- The tables that a member event can change.  Remote users are noted as
users without a password. -/
structure MemberTables where
  cache : StateCache
  users : UserId → Bool
  roomuseroncejoinedids : UserRoom → Bool

inductive MemberError where
  | badJson (message : String)
  | accountData (message : String)
  | cache (error : CacheError)
  deriving DecidableEq, Repr

/-- `copyAccountData` copies tags and the direct chat flag from the
predecessor that the room may have. -/
structure MemberServices extends CacheServices where
  contentError : Json → String
  summaryStripped : Pdu → RoomId → StrippedState
  copyAccountData : RoomId → UserId → Except MemberError Unit

def plainMembers : MemberServices :=
  { StateCache.plainServices with
    contentError := fun _ => "missing field"
    summaryStripped := fun _ _ => []
    copyAccountData := fun _ _ => .ok () }

namespace MemberTables

def empty : MemberTables where
  cache := StateCache.empty
  users := fun _ => false
  roomuseroncejoinedids := fun _ => false

def onCache (change : StateCache → StateCache) (tables : MemberTables) :
    MemberTables :=
  { tables with cache := change tables.cache }

def createUser (userId : UserId) (tables : MemberTables) : MemberTables :=
  { tables with users := Function.update tables.users userId true }

def markAsOnceJoined (userId : UserId) (roomId : RoomId)
    (tables : MemberTables) : MemberTables :=
  { tables with
    roomuseroncejoinedids :=
      Function.update tables.roomuseroncejoinedids (userId, roomId) true }

end MemberTables

abbrev Updating := EStateM MemberError MemberTables

namespace MemberServices

variable (ruma : Ruma) (services : MemberServices)

def membershipOf (pdu : Pdu) : Except MemberError MembershipState :=
  match ruma.roomMember pdu.content with
  | some membership => .ok membership
  | none => .error (.badJson ("Failed to deserialize content into type: " ++
      services.contentError pdu.content))

def createRemote (userId : UserId) : Updating Unit := do
  if !services.userIsLocal userId && !(← get).users userId then
    modify (MemberTables.createUser userId)

def joinFirst (roomId : RoomId) (userId : UserId) : Updating Unit := do
  if !(← get).roomuseroncejoinedids (userId, roomId) then
    modify (MemberTables.markAsOnceJoined userId roomId)
    liftExcept (services.copyAccountData roomId userId)

variable (roomId : RoomId) (userId : UserId) (pdu : Pdu)

def markAsInvited : Updating Unit := do
  let lastState := services.summaryStripped pdu roomId
  let invited := (← get).cache.markAsInvited services.toCacheServices userId
    roomId pdu.sender (some lastState) none
  let cache ← liftExcept (invited.mapError MemberError.cache)
  modify (MemberTables.onCache fun _ => cache)

def applyMembership : MembershipState → Updating Unit
  | .join => do
      services.joinFirst roomId userId
      modify (MemberTables.onCache
        fun cache => cache.markAsJoined userId roomId)
  | .invite => services.markAsInvited roomId userId pdu
  | .leave | .ban =>
      modify (MemberTables.onCache fun cache =>
        cache.markAsLeft services.toCacheServices userId roomId (some pdu))
  | .knock | .custom _ => pure ()

def updateJoinedCount : Updating Unit :=
  modify (MemberTables.onCache fun cache =>
    cache.updateJoinedCount services.toCacheServices roomId)

def updateMembership (updateJoinedCount : Bool) : Updating Unit := do
  let membership ← liftExcept (services.membershipOf ruma pdu)
  services.createRemote userId
  services.applyMembership roomId userId pdu membership
  if updateJoinedCount then services.updateJoinedCount roomId

def callFor : MembershipState → Option CacheCall
  | .join => some (.markAsJoined userId roomId)
  | .invite => some (.markAsInvited userId roomId pdu.sender
      (some (services.summaryStripped pdu roomId)) none)
  | .leave | .ban => some (.markAsLeft userId roomId (some pdu))
  | .knock | .custom _ => none

def settle (membership : MembershipState) (cache : StateCache) : StateCache :=
  match services.callFor roomId userId pdu membership with
  | some call => (cache.step (services.toCacheServices, call)).1
  | none => cache

def Accepts (tables : MemberTables) (roomId : RoomId) (userId : UserId)
    (pdu : Pdu) : MembershipState → Prop
  | .join => tables.roomuseroncejoinedids (userId, roomId) = true ∨
      services.copyAccountData roomId userId = .ok ()
  | .invite => ¬ services.blocksInvite pdu.sender userId
  | .leave | .ban | .knock | .custom _ => True

instance (tables : MemberTables) (roomId : RoomId) (userId : UserId)
    (pdu : Pdu) (membership : MembershipState) :
    Decidable (services.Accepts tables roomId userId pdu membership) :=
  match membership with
  | .join => inferInstanceAs (Decidable (_ ∨ _))
  | .invite => inferInstanceAs (Decidable (¬ _))
  | .leave | .ban | .knock | .custom _ => isTrue trivial

variable {ruma services} {roomId : RoomId} {userId : UserId} {pdu : Pdu}
  {tables after : MemberTables} {membership : MembershipState}

structure Notes (before after : MemberTables) : Prop where
  users : ∀ userId, before.users userId = true → after.users userId = true
  onceJoined : ∀ key, before.roomuseroncejoinedids key = true →
    after.roomuseroncejoinedids key = true

theorem Notes.refl (tables : MemberTables) : Notes tables tables :=
  ⟨fun _ old => old, fun _ old => old⟩

theorem Notes.trans {first second third : MemberTables}
    (left : Notes first second) (right : Notes second third) :
    Notes first third :=
  ⟨fun userId old => right.users userId (left.users userId old),
    fun key old => right.onceJoined key (left.onceJoined key old)⟩

theorem Notes.onCache {before after : MemberTables}
    (notes : Notes before after) (change : StateCache → StateCache) :
    Notes before (after.onCache change) :=
  ⟨notes.users, notes.onceJoined⟩

theorem update_true {α : Type} [DecidableEq α] {noted : α → Bool}
    {here other : α} (old : noted other = true) :
    Function.update noted here true other = true := by
  rw [Function.update_apply]
  split
  · rfl
  · exact old

theorem createRemote_spec (services : MemberServices) (userId : UserId)
    (tables : MemberTables) :
    ∃ after, services.createRemote userId tables = .ok () after ∧
      after.cache = tables.cache ∧
      after.roomuseroncejoinedids = tables.roomuseroncejoinedids ∧
      Notes tables after := by
  unfold createRemote
  rw [get_bind]
  split
  · exact ⟨_, rfl, rfl, rfl, fun _ old => update_true old, fun _ old => old⟩
  · exact ⟨_, rfl, rfl, rfl, fun _ old => old, fun _ old => old⟩

theorem joinFirst_known
    (once : tables.roomuseroncejoinedids (userId, roomId) = true) :
    services.joinFirst roomId userId tables = .ok () tables := by
  rw [joinFirst, get_bind, once]
  rfl

theorem joinFirst_new
    (once : tables.roomuseroncejoinedids (userId, roomId) = false) :
    services.joinFirst roomId userId tables =
      (liftExcept (services.copyAccountData roomId userId) : Updating Unit)
        (tables.markAsOnceJoined userId roomId) := by
  rw [joinFirst, get_bind, once]
  rfl

section

variable (services : MemberServices) (roomId : RoomId) (userId : UserId)

theorem joinFirst_spec (tables : MemberTables) :
    Meets (fun _ after => after.cache = tables.cache ∧ Notes tables after ∧
        services.Accepts tables roomId userId pdu .join)
      (fun _ after => after.cache = tables.cache ∧ Notes tables after ∧
        ¬ services.Accepts tables roomId userId pdu .join)
      (services.joinFirst roomId userId tables) := by
  cases once : tables.roomuseroncejoinedids (userId, roomId) with
  | true =>
      rw [joinFirst_known once]
      exact ⟨rfl, ⟨fun _ old => old, fun _ old => old⟩, .inl once⟩
  | false =>
      have noted : Notes tables (tables.markAsOnceJoined userId roomId) :=
        ⟨fun _ old => old, fun _ old => update_true old⟩
      rw [joinFirst_new once]
      cases copied : services.copyAccountData roomId userId with
      | ok => exact ⟨rfl, noted, .inr copied⟩
      | error error =>
          refine ⟨rfl, noted, ?_⟩
          intro accepts
          rcases accepts with known | fine
          · exact absurd known (by simp [once])
          · rw [copied] at fine
            cases fine

theorem markAsInvited_spec (pdu : Pdu) (tables : MemberTables) :
    Meets
      (fun _ after =>
        after.cache = services.settle roomId userId pdu .invite tables.cache ∧
          Notes tables after ∧
          services.Accepts tables roomId userId pdu .invite)
      (fun _ after => after.cache = tables.cache ∧ Notes tables after ∧
        ¬ services.Accepts tables roomId userId pdu .invite)
      (services.markAsInvited roomId userId pdu tables) := by
  unfold MemberServices.markAsInvited
  simp only [get_bind]
  cases invited : tables.cache.markAsInvited services.toCacheServices userId
      roomId pdu.sender (some (services.summaryStripped pdu roomId)) none with
  | ok cache =>
      refine ⟨?_, (Notes.refl tables).onCache _, (markAsInvited_ok invited).1⟩
      simp only [settle, callFor, StateCache.step, invited]
      rfl
  | error error =>
      refine ⟨rfl, .refl tables, ?_⟩
      intro accepts
      exact accepts (markAsInvited_error invited)

theorem applyMembership_spec (pdu : Pdu) (membership : MembershipState)
    (tables : MemberTables) :
    Meets (fun _ after => after.cache =
          services.settle roomId userId pdu membership tables.cache ∧
        Notes tables after ∧
        services.Accepts tables roomId userId pdu membership)
      (fun _ after => after.cache = tables.cache ∧ Notes tables after ∧
        ¬ services.Accepts tables roomId userId pdu membership)
      (services.applyMembership roomId userId pdu membership tables) := by
  cases membership with
  | join =>
      refine (joinFirst_spec services roomId userId tables).bind ?_
      intro _ middle found
      obtain ⟨cache, noted, accepts⟩ := found
      refine ⟨?_, noted.onCache _, accepts⟩
      change middle.cache.markAsJoined userId roomId = _
      rw [cache]
      rfl
  | invite => exact markAsInvited_spec services roomId userId pdu tables
  | leave | ban => exact ⟨rfl, (Notes.refl tables).onCache _, trivial⟩
  | knock | custom name => exact ⟨rfl, .refl tables, trivial⟩

end

/-- The counts of the room are brought up to date if that is asked for. -/
def recount (services : MemberServices) (roomId : RoomId) :
    Bool → StateCache → StateCache
  | true, cache => cache.updateJoinedCount services.toCacheServices roomId
  | false, cache => cache

def Applies (ruma : Ruma) (services : MemberServices)
    (tables : MemberTables) (roomId : RoomId) (userId : UserId) (pdu : Pdu)
    (membership : MembershipState) : Prop :=
  ruma.roomMember pdu.content = some membership ∧
    services.Accepts tables roomId userId pdu membership

theorem updateMembership_spec (ruma : Ruma) (services : MemberServices)
    (roomId : RoomId) (userId : UserId) (pdu : Pdu) (counts : Bool)
    (tables : MemberTables) :
    Meets (fun _ after => Notes tables after ∧ ∃ membership,
        services.Applies ruma tables roomId userId pdu membership ∧
        after.cache = services.recount roomId counts
          (services.settle roomId userId pdu membership tables.cache))
      (fun _ after => after.cache = tables.cache ∧ Notes tables after ∧
        ∀ membership,
          ¬ services.Applies ruma tables roomId userId pdu membership)
      (services.updateMembership ruma roomId userId pdu counts tables) := by
  unfold updateMembership
  cases content : ruma.roomMember pdu.content with
  | none =>
      have unread : services.membershipOf ruma pdu = .error (.badJson
          ("Failed to deserialize content into type: " ++
            services.contentError pdu.content)) := by
        simp only [membershipOf, content]
      rw [unread]
      refine ⟨rfl, .refl tables, ?_⟩
      intro membership applies
      exact absurd (content.symm.trans applies.1) (by simp)
  | some membership =>
      have read : services.membershipOf ruma pdu = .ok membership := by
        simp only [membershipOf, content]
      obtain ⟨created, isCreated, cache, once, noted⟩ :=
        createRemote_spec services userId tables
      have same : services.Accepts created roomId userId pdu membership ↔
          services.Accepts tables roomId userId pdu membership := by
        cases membership <;> simp only [Accepts, once]
      have begins : (liftExcept (services.membershipOf ruma pdu) :
          Updating MembershipState) tables = .ok membership tables := by
        rw [read]
        rfl
      rw [bind_of_ok _ begins, bind_of_ok _ isCreated]
      have arms : Meets
          (fun _ after => after.cache = services.settle roomId userId pdu
            membership tables.cache ∧ Notes tables after ∧
            services.Applies ruma tables roomId userId pdu membership)
          (fun _ after => after.cache = tables.cache ∧ Notes tables after ∧
            ∀ membership,
              ¬ services.Applies ruma tables roomId userId pdu membership)
          (services.applyMembership roomId userId pdu membership created) := by
        refine (applyMembership_spec services roomId userId pdu membership
          created).mono ?_ ?_
        · intro _ after found
          obtain ⟨settled, also, accepts⟩ := found
          rw [cache] at settled
          exact ⟨settled, noted.trans also, content, same.mp accepts⟩
        · intro _ after found
          obtain ⟨kept, also, refused⟩ := found
          refine ⟨kept.trans cache, noted.trans also, ?_⟩
          intro other applies
          have equal := Option.some.inj (content.symm.trans applies.1)
          subst equal
          exact refused (same.mpr applies.2)
      refine arms.bind ?_
      intro _ middle found
      obtain ⟨settled, noted, applies⟩ := found
      cases counts with
      | false => exact ⟨noted, membership, applies, settled⟩
      | true =>
          refine ⟨noted.onCache _, membership, applies, ?_⟩
          exact congrArg (services.recount roomId true) settled

def Ignored : MembershipState → Prop
  | .knock | .custom _ => True
  | .join | .invite | .leave | .ban => False

instance (membership : MembershipState) : Decidable (Ignored membership) :=
  match membership with
  | .knock | .custom _ => isTrue trivial
  | .join | .invite | .leave | .ban => isFalse id

theorem mem_settle {cache : StateCache} {other : RoomId × UserId}
    (accepts : services.Accepts tables roomId userId pdu membership) :
    other ∈ (services.settle roomId userId pdu membership
        cache).roomuseridJoined ↔
      if other = (roomId, userId) then membership = .join ∨
          Ignored membership ∧ other ∈ cache.roomuseridJoined
      else other ∈ cache.roomuseridJoined := by
  cases membership with
  | join =>
      by_cases here : other = (roomId, userId) <;>
        simp [settle, callFor, StateCache.step, StateCache.markAsJoined, here]
  | invite =>
      have unblocked : ¬ services.inviteFilterLevel pdu.sender userId =
          .block := accepts
      by_cases here : other = (roomId, userId) <;>
        simp [settle, callFor, StateCache.step, StateCache.markAsInvited,
          unblocked, here, Ignored]
  | leave | ban =>
      by_cases here : other = (roomId, userId) <;>
        simp only [settle, callFor, StateCache.step, StateCache.markAsLeft] <;>
        split <;> simp [StateCache.leave, StateCache.forget, here, Ignored]
  | knock | custom name =>
      by_cases here : other = (roomId, userId) <;>
        simp [settle, callFor, here, Ignored]

def standingOf (services : MemberServices) (key : UserRoom) :
    MembershipState → Option Membership
  | .join => some .joined
  | .invite => some .invited
  | .knock => some .knocked
  | .leave | .ban =>
      if services.forgetsOnLeave key then none else some .left
  | .custom _ => none

theorem stands_settle {cache : StateCache}
    (accepts : services.Accepts tables roomId userId pdu membership)
    (handled : ¬ Ignored membership) :
    (services.settle roomId userId pdu membership cache).Stands
      (userId, roomId) (services.standingOf (userId, roomId) membership) := by
  cases membership with
  | join => exact (moves_markAsJoined userId roomId).stands
  | invite =>
      simp only [settle, callFor, StateCache.step]
      split
      next invited => exact (markAsInvited_ok invited).2.stands
      next refused =>
        exact absurd (markAsInvited_error refused) accepts
  | leave | ban =>
      exact (moves_markAsLeft services.toCacheServices userId
        roomId (some pdu)).stands
  | knock | custom name => exact absurd trivial handled

theorem stands_recount {cache : StateCache} {counts : Bool} {key : UserRoom}
    {target : Option Membership} :
    (services.recount roomId counts cache).Stands key target ↔
      cache.Stands key target := by
  have same : ∀ standing, (services.recount roomId counts cache).hasRow
      standing key ↔ cache.hasRow standing key := by
    intro standing
    cases counts <;> cases standing <;> rfl
  exact forall_congr' fun standing => iff_congr (same standing) Iff.rfl

theorem counter_settle (cache : StateCache) : cache.counter ≤
      (services.settle roomId userId pdu membership cache).counter := by
  unfold settle
  split
  next call found =>
    cases call with
    | markAsJoined => exact Nat.le_refl _
    | markAsLeft =>
        simp only [StateCache.step, StateCache.markAsLeft]
        split <;> exact le_nextCounter _
    | markAsInvited =>
        simp only [StateCache.step, StateCache.markAsInvited]
        split
        next invited =>
          split at invited
          · cases invited
          · split at invited <;> cases invited <;> exact le_nextCounter _
        · exact Nat.le_refl _
    | markAsKnocked => exact le_nextCounter _
    | forget => exact Nat.le_refl _
  · exact Nat.le_refl _

end MemberServices

/-- `pdus` holds what `get_pdu` finds. -/
structure StateWorld (Digest : Type) where
  store : Store Digest
  members : MemberTables
  pdus : EventId → Option Pdu
  roomidSpacehierarchyCache : Finset RoomId

variable {Digest : Type} [DecidableEq Digest]

abbrev Forcing (Digest : Type) := EStateM MemberError (StateWorld Digest)

namespace StateWorld

def empty (cacheCapacity : Nat) : StateWorld Digest where
  store := Store.empty cacheCapacity
  members := MemberTables.empty
  pdus := fun _ => none
  roomidSpacehierarchyCache := ∅

variable (world : StateWorld Digest)

def pduOf (event : CompressedStateEvent) : Option Pdu :=
  (world.store.short.shorteventidEventid
    (parseCompressedStateEvent event).2).bind world.pdus

def memberTables : MemberTables :=
  world.members.onCache
    fun cache => { cache with counter := world.store.short.counter }

def withMembers (members : MemberTables) : StateWorld Digest :=
  { world with
    members
    store := { world.store with short := { world.store.short with
      counter := members.cache.counter } } }

end StateWorld

def onMembers (action : Updating Unit) : Forcing Digest Unit := fun world =>
  match action world.memberTables with
  | .ok value members => .ok value (world.withMembers members)
  | .error error members => .error error (world.withMembers members)

section

variable (ruma : Ruma) (services : MemberServices)

/-- A state key that is no user id is passed over. -/
def forceMember (roomId : RoomId) (pdu : Pdu) : Forcing Digest Unit :=
  match pdu.stateKey.filter ruma.validUserId with
  | none => pure ()
  | some userId =>
      onMembers (services.updateMembership ruma roomId userId pdu false)

def forceEvent (roomId : RoomId) (new : CompressedStateEvent) :
    Forcing Digest Unit := do
  match (← get).pduOf new with
  | none => pure ()
  | some pdu =>
      if pdu.kind = .roomMember then forceMember ruma services roomId pdu
      else if pdu.kind = .other "m.space.child" then
        modify (fun world => { world with
          roomidSpacehierarchyCache :=
            world.roomidSpacehierarchyCache.erase roomId })
      else pure ()

def forceState (roomId : RoomId) (shortstatehash : ShortStateHash)
    (statediffnew _statediffremoved : CompressedState) :
    Forcing Digest Unit := do
  statediffnew.sort.forM (forceEvent ruma services roomId)
  onMembers (services.updateJoinedCount roomId)
  modify (fun world =>
    { world with store := world.store.setRoomState roomId shortstatehash })

end

/-! Runs of the calls.  Between them other services draw counts and short ids
and store events under their ids. -/

inductive ForceInput where
  | nextCount
  | nameEvent (eventId : EventId)
  | nameKey (key : TypeStateKey)
  | storePdu (pdu : Pdu)
  | forceState (services : MemberServices) (roomId : RoomId) (state : RoomState)

inductive ForceOutput where
  | done
  | notSaved (failure : Failure)
  | forced (shortstatehash : ShortStateHash) (result : Except MemberError Unit)
  deriving DecidableEq

namespace StateWorld

def withShort (world : StateWorld Digest) (short : Short Digest) :
    StateWorld Digest :=
  { world with store := { world.store with short } }

def storePdu (world : StateWorld Digest) (pdu : Pdu) : StateWorld Digest :=
  match world.pdus pdu.eventId with
  | some _ => world
  | none => { world with
      pdus := Function.update world.pdus pdu.eventId (some pdu) }

variable (calculateHash : List CompressedStateEvent → Digest) (ruma : Ruma)

variable (world : StateWorld Digest)

def saveAndForce (services : MemberServices) (roomId : RoomId)
    (state : CompressedState) : StateWorld Digest × ForceOutput :=
  match world.store.saveState calculateHash roomId state with
  | (.error failure, store) => ({ world with store }, .notSaved failure)
  | (.ok answer, store) =>
      let result := forceState ruma services roomId answer.shortstatehash
        answer.added answer.removed { world with store }
      (ended result, .forced answer.shortstatehash (outcome result))

def step : ForceInput → StateWorld Digest × ForceOutput
  | .nextCount => (world.withShort world.store.short.nextCount.2, .done)
  | .nameEvent eventId =>
      (world.withShort (world.store.short.getOrCreateShorteventid eventId).2,
        .done)
  | .nameKey key =>
      (world.withShort (world.store.short.getOrCreateShortstatekey key).2,
        .done)
  | .storePdu pdu => (world.storePdu pdu, .done)
  | .forceState services roomId state =>
      world.saveAndForce calculateHash ruma services roomId state.entries

def JoinedIn (state : CompressedState) (userId : UserId) : Prop :=
  ruma.validUserId userId = true ∧ ∃ event ∈ state,
    world.store.short.statekeyShortstatekey (.roomMember, userId) =
      some (keyOf event) ∧
    ∃ pdu, world.pduOf event = some pdu ∧
      ruma.roomMember pdu.content = some .join

def Agrees (roomId : RoomId) (shortstatehash : ShortStateHash) : Prop :=
  ∃ top below, (world.store.loadInfo shortstatehash).1 = .ok (top :: below) ∧
    ∀ userId, userId ∈ world.members.cache.roomMembers roomId ↔
      world.JoinedIn ruma top.fullState userId

end StateWorld

end ArcanaServer.Rooms
