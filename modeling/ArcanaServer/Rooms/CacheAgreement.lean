import ArcanaServer.Rooms.UpdateMembership

namespace ArcanaServer.Rooms

open Library ArcanaServer.Matrix StateCompressor MemberServices List

variable {Digest : Type} [DecidableEq Digest]

namespace StateWorld

variable (calculateHash : List CompressedStateEvent → Digest) (ruma : Ruma)
  (world : StateWorld Digest)

def currentState (roomId : RoomId) : CompressedState :=
  baseOf ((world.store.loadParents
    (world.store.roomidShortstatehash roomId)).1.toOption.getD [])

/-- The state key was compressed by the short service, and the event sits under
its own state key. -/
structure Described (event : CompressedStateEvent) : Prop where
  keyed : ∃ key ∈ world.store.short.shortstatekeyStatekey (keyOf event),
    world.store.short.statekeyShortstatekey key = some (keyOf event)
  sits : ∀ pdu ∈ world.pduOf event, ∃ stateKey ∈ pdu.stateKey,
    world.store.short.shortstatekeyStatekey (keyOf event) =
      some (pdu.kind, stateKey)

def Savable (state : CompressedState) : Prop :=
  match world.store.short.statehashShortstatehash
      (calculateHash state.sort) with
  | none => world.store.short.counter < u64Max
  | some hash => world.store.Holds hash state

/-- A member event that the state adds is stored, can be read and is not
refused, and a user whose membership is ignored is not reported as joined. -/
def Followable (services : MemberServices) (roomId : RoomId)
    (event : CompressedStateEvent) : Prop :=
  ∀ key ∈ world.store.short.shortstatekeyStatekey (keyOf event),
    key.1 = .roomMember → ruma.validUserId key.2 = true →
    ∃ pdu ∈ world.pduOf event, ∃ membership ∈ ruma.roomMember pdu.content,
      services.Accepts world.members roomId key.2 pdu membership ∧
        (Ignored membership → key.2 ∉ world.members.cache.roomMembers roomId)

instance (event : CompressedStateEvent) : Decidable (world.Described event) :=
  decidable_of_iff
    ((∃ key ∈ world.store.short.shortstatekeyStatekey (keyOf event),
        world.store.short.statekeyShortstatekey key = some (keyOf event)) ∧
      ∀ pdu ∈ world.pduOf event, ∃ stateKey ∈ pdu.stateKey,
        world.store.short.shortstatekeyStatekey (keyOf event) =
          some (pdu.kind, stateKey))
    ⟨fun both => ⟨both.1, both.2⟩,
      fun described => ⟨described.keyed, described.sits⟩⟩

instance (services : MemberServices) (roomId : RoomId)
    (event : CompressedStateEvent) :
    Decidable (world.Followable ruma services roomId event) :=
  inferInstanceAs (Decidable
    (∀ key ∈ world.store.short.shortstatekeyStatekey (keyOf event),
      key.1 = .roomMember → ruma.validUserId key.2 = true →
      ∃ pdu ∈ world.pduOf event, ∃ membership ∈ ruma.roomMember pdu.content,
        services.Accepts world.members roomId key.2 pdu membership ∧
          (Ignored membership →
            key.2 ∉ world.members.cache.roomMembers roomId)))

/-- No user who is reported as joined loses their member entry, and the new
member entries can be followed. -/
structure Trackable (services : MemberServices) (roomId : RoomId)
    (state : CompressedState) : Prop where
  described : ∀ event ∈ state, world.Described event
  savable : world.Savable calculateHash state
  kept : ∀ userId ∈ world.members.cache.roomMembers roomId, ∃ event ∈ state,
      world.store.short.statekeyShortstatekey (.roomMember, userId) =
        some (keyOf event)
  followable : ∀ event ∈ state \ world.currentState roomId,
    world.Followable ruma services roomId event

def Names (event : CompressedStateEvent) (userId : UserId) : Prop :=
  ruma.validUserId userId = true ∧
    world.store.short.statekeyShortstatekey (.roomMember, userId) =
      some (keyOf event)

def Joins (event : CompressedStateEvent) : Prop :=
  ∃ pdu, world.pduOf event = some pdu ∧ ruma.roomMember pdu.content = some .join

/-- The tables of the short ids answer each other, and hold no id that the
counter has not reached. -/
structure Issued : Prop where
  named : ∀ key id, world.store.short.statekeyShortstatekey key = some id →
    world.store.short.shortstatekeyStatekey id = some key
  keys : ∀ key id, world.store.short.statekeyShortstatekey key = some id →
    id ≤ world.store.short.counter
  events : ∀ id eventId,
    world.store.short.shorteventidEventid id = some eventId →
      id ≤ world.store.short.counter

def withCounter (store : Store Digest) (counter : Nat) : Store Digest :=
  { store with short := { store.short with counter } }

/-- What the loop has done after it has visited some of the entries. -/
structure Forced (roomId : RoomId) (before : StateWorld Digest)
    (visited : List CompressedStateEvent) (after : StateWorld Digest) :
    Prop where
  store : ∃ counter, before.store.short.counter ≤ counter ∧
    after.store = withCounter before.store counter
  pdus : after.pdus = before.pdus
  notes : Notes before.members after.members
  others : ∀ otherRoom userId, (otherRoom = roomId → ∀ event ∈ visited,
      ¬ before.Names ruma event userId) →
    ((otherRoom, userId) ∈ after.members.cache.roomuseridJoined ↔
      (otherRoom, userId) ∈ before.members.cache.roomuseridJoined)
  placed : ∀ event ∈ visited, ∀ userId, before.Names ruma event userId →
    ((roomId, userId) ∈ after.members.cache.roomuseridJoined ↔
      before.Joins ruma event)

variable {ruma world} {services : MemberServices} {roomId : RoomId}
  {before after : StateWorld Digest} {visited : List CompressedStateEvent}
  {event : CompressedStateEvent}

section

omit [DecidableEq Digest]

theorem mem_roomMembers {cache : StateCache} {userId : UserId} :
    userId ∈ cache.roomMembers roomId ↔
      (roomId, userId) ∈ cache.roomuseridJoined := by
  unfold StateCache.roomMembers
  constructor
  · intro member
    obtain ⟨key, inside, same⟩ := mem_map.mp member
    obtain ⟨row, isRoom⟩ := mem_filter.mp inside
    have isKey : key = (roomId, userId) :=
      Prod.ext (of_decide_eq_true isRoom) same
    exact isKey ▸ row
  · intro row
    exact mem_map.mpr ⟨(roomId, userId),
      mem_filter.mpr ⟨row, decide_eq_true rfl⟩, rfl⟩

theorem Forced.start (world : StateWorld Digest) :
    world.Forced ruma roomId [] world where
  store := ⟨_, Nat.le_refl _, rfl⟩
  pdus := rfl
  notes := .refl _
  others := fun _ _ _ => Iff.rfl
  placed := by
    intro event member
    cases member

theorem Forced.pduOf (forced : before.Forced ruma roomId visited world)
    (event : CompressedStateEvent) :
    world.pduOf event = before.pduOf event := by
  obtain ⟨counter, _, store⟩ := forced.store
  unfold StateWorld.pduOf
  rw [store, forced.pdus]
  rfl

theorem Forced.skip (forced : before.Forced ruma roomId visited world)
    (nobody : ∀ userId, ¬ before.Names ruma event userId)
    (store : after.store = world.store) (pdus : after.pdus = world.pdus)
    (members : after.members = world.members) :
    before.Forced ruma roomId (visited ++ [event]) after where
  store := by
    rw [store]
    exact forced.store
  pdus := pdus.trans forced.pdus
  notes := by
    rw [members]
    exact forced.notes
  others := by
    intro otherRoom userId unnamed
    rw [members]
    exact forced.others otherRoom userId fun here other inside =>
      unnamed here other (mem_append_left _ inside)
  placed := by
    intro other inside userId names
    rw [members]
    rcases mem_append.mp inside with earlier | last
    · exact forced.placed other earlier userId names
    · rw [mem_singleton.mp last] at names
      exact absurd names (nobody userId)

theorem onMembers_spec {action : Updating Unit}
    {good : Unit → MemberTables → Prop} {bad : MemberError → MemberTables → Prop}
    (meets : Meets good bad (action world.memberTables)) :
    Meets (fun value after => ∃ members, good value members ∧
        after = world.withMembers members)
      (fun error after => ∃ members, bad error members ∧
        after = world.withMembers members)
      (onMembers action world) := by
  unfold onMembers
  cases result : action world.memberTables with
  | ok value members | error error members =>
      rw [result] at meets
      exact ⟨members, meets, rfl⟩

theorem Issued.unique (issued : world.Issued) {first second : TypeStateKey}
    {id : ShortStateKey}
    (one : world.store.short.statekeyShortstatekey first = some id)
    (other : world.store.short.statekeyShortstatekey second = some id) :
    first = second :=
  Option.some.inj ((issued.named first id one).symm.trans
    (issued.named second id other))

/-- The member entry of a user settles where the user stands. -/
theorem Forced.place (forced : before.Forced ruma roomId visited world)
    (issued : before.Issued)
    (fresh : ∀ other ∈ visited, keyOf other ≠ keyOf event)
    {userId : UserId} {pdu : Pdu} {membership : MembershipState}
    (names : before.Names ruma event userId)
    (found : before.pduOf event = some pdu)
    (content : ruma.roomMember pdu.content = some membership)
    (accepts : services.Accepts before.members roomId userId pdu membership)
    (ignored : Ignored membership →
      userId ∉ before.members.cache.roomMembers roomId)
    {members : MemberTables} (notes : Notes world.memberTables members)
    (cache : members.cache = services.settle roomId userId pdu membership
      world.memberTables.cache) :
    before.Forced ruma roomId (visited ++ [event])
      (world.withMembers members) := by
  have unvisited : ∀ other ∈ visited, ¬ before.Names ruma other userId := by
    intro other inside otherNames
    exact fresh other inside (Option.some.inj (otherNames.2.symm.trans names.2))
  have moved : ∀ otherRoom other,
      (otherRoom, other) ∈ members.cache.roomuseridJoined ↔
        if (otherRoom, other) = (roomId, userId) then membership = .join ∨
          Ignored membership ∧
            (otherRoom, other) ∈ world.members.cache.roomuseridJoined
        else (otherRoom, other) ∈ world.members.cache.roomuseridJoined := by
    intro otherRoom other
    rw [cache]
    exact mem_settle accepts
  obtain ⟨counter, grows, store⟩ := forced.store
  refine ⟨⟨members.cache.counter, ?_, ?_⟩, forced.pdus,
    forced.notes.trans ⟨notes.users, notes.onceJoined⟩, ?_, ?_⟩
  · have later : world.store.short.counter ≤ members.cache.counter := by
      rw [cache]
      exact counter_settle world.memberTables.cache
    rw [store] at later
    exact Nat.le_trans grows later
  · simp only [withMembers, store]
    rfl
  · intro otherRoom other unnamed
    have apart : (otherRoom, other) ≠ (roomId, userId) := by
      intro same
      obtain ⟨here, isUser⟩ := Prod.mk.inj same
      rw [isUser] at unnamed
      exact unnamed here event (by simp) names
    rw [← forced.others otherRoom other fun here earlier inside =>
      unnamed here earlier (mem_append_left _ inside)]
    exact (moved otherRoom other).trans (by rw [if_neg apart])
  · intro other inside otherUser otherNames
    refine (moved roomId otherUser).trans ?_
    rcases mem_append.mp inside with earlier | last
    · have apart : (roomId, otherUser) ≠ (roomId, userId) := by
        intro same
        rw [(Prod.mk.inj same).2] at otherNames
        exact unvisited other earlier otherNames
      rw [if_neg apart]
      exact forced.placed other earlier otherUser otherNames
    · rw [mem_singleton.mp last] at otherNames ⊢
      have isUser : otherUser = userId :=
        congrArg Prod.snd (issued.unique otherNames.2 names.2)
      rw [isUser, if_pos rfl, forced.others roomId userId fun _ => unvisited]
      constructor
      · intro either
        rcases either with join | kept
        · exact ⟨pdu, found, join ▸ content⟩
        · exact absurd (mem_roomMembers.mpr kept.2) (ignored kept.1)
      · intro joins
        obtain ⟨other, otherFound, join⟩ := joins
        have same := Option.some.inj (found.symm.trans otherFound)
        rw [← same] at join
        exact .inl (Option.some.inj (content.symm.trans join))

theorem accepts_mono {members : MemberTables}
    (notes : Notes before.members members) {userId : UserId} {pdu : Pdu}
    {membership : MembershipState}
    (accepts : services.Accepts before.members roomId userId pdu membership) :
    services.Accepts members roomId userId pdu membership := by
  cases membership with
  | join =>
      rcases accepts with once | copied
      · exact .inl (notes.onceJoined _ once)
      · exact .inr copied
  | invite => exact accepts
  | leave | ban | knock | custom name => trivial

theorem forceEvent_spec (issued : before.Issued)
    (described : before.Described event)
    (followable : before.Followable ruma services roomId event)
    (fresh : ∀ other ∈ visited, keyOf other ≠ keyOf event)
    (forced : before.Forced ruma roomId visited world) :
    Meets (fun _ => before.Forced ruma roomId (visited ++ [event]))
      (fun _ _ => False) (forceEvent ruma services roomId event world) := by
  have memberKey : ∀ userId, before.Names ruma event userId →
      before.store.short.shortstatekeyStatekey (keyOf event) =
        some (.roomMember, userId) :=
    fun userId names => issued.named _ _ names.2
  unfold forceEvent
  rw [get_bind, forced.pduOf event]
  cases found : before.pduOf event with
  | none =>
      refine forced.skip ?_ rfl rfl rfl
      intro userId names
      obtain ⟨pdu, stored, _⟩ :=
        followable _ (memberKey userId names) rfl names.1
      rw [found] at stored
      cases stored
  | some pdu =>
      obtain ⟨stateKey, isStateKey, key⟩ := described.sits pdu found
      have isKey : ∀ userId, before.Names ruma event userId →
          pdu.kind = .roomMember ∧ stateKey = userId := by
        intro userId names
        have same := Option.some.inj (key.symm.trans (memberKey userId names))
        exact ⟨congrArg Prod.fst same, congrArg Prod.snd same⟩
      simp only
      split
      next isMember =>
        rw [isMember] at key
        unfold forceMember
        cases parsed : pdu.stateKey.filter ruma.validUserId with
        | none =>
            refine forced.skip ?_ rfl rfl rfl
            intro userId names
            rw [(isKey userId names).2] at isStateKey
            rw [Option.mem_def.mp isStateKey] at parsed
            simp [names.1] at parsed
        | some userId =>
            obtain ⟨isUser, valid⟩ := Option.filter_eq_some_iff.mp parsed
            have same : stateKey = userId :=
              Option.some.inj (isStateKey.symm.trans isUser)
            rw [same] at key
            obtain ⟨known, isKnown, drawn⟩ := described.keyed
            have knownKey := Option.some.inj (key.symm.trans isKnown)
            rw [← knownKey] at drawn
            obtain ⟨other, stored, membership, content, accepts, ignored⟩ :=
              followable _ key rfl valid
            have isPdu := Option.some.inj (found.symm.trans stored)
            rw [← isPdu] at content accepts
            have kept := accepts_mono forced.notes accepts
            refine (onMembers_spec (updateMembership_spec ruma services
              roomId userId pdu false world.memberTables)).mono ?_ ?_
            · intro _ after done
              obtain ⟨members, ⟨notes, settled, applies, cache⟩, isAfter⟩ :=
                done
              have sameMembership := Option.some.inj
                (applies.1.symm.trans content)
              rw [sameMembership] at cache
              rw [isAfter]
              exact forced.place issued fresh ⟨valid, drawn⟩ found content
                accepts ignored notes cache
            · intro error after refused
              obtain ⟨members, ⟨_, _, unapplied⟩, _⟩ := refused
              exact unapplied membership ⟨content, kept⟩
      next notMember =>
        have nobody : ∀ userId, ¬ before.Names ruma event userId :=
          fun userId names => notMember (isKey userId names).1
        split
        · exact forced.skip nobody rfl rfl rfl
        · exact forced.skip nobody rfl rfl rfl

theorem forceState_spec (issued : world.Issued)
    {added removed : CompressedState}
    (distinct : ∀ left ∈ added, ∀ right ∈ added,
      keyOf left = keyOf right → left = right)
    (described : ∀ event ∈ added, world.Described event)
    (followable : ∀ event ∈ added, world.Followable ruma services roomId event)
    (shortstatehash : ShortStateHash) :
    ∃ visited after,
      forceState ruma services roomId shortstatehash added removed world =
          .ok () after ∧
        world.Forced ruma roomId added.sort visited ∧
        after.store = visited.store.setRoomState roomId shortstatehash ∧
        after.pdus = visited.pdus ∧
        after.members.cache.roomuseridJoined =
          visited.members.cache.roomuseridJoined := by
  have step : ∀ visited event rest state,
      added.sort = visited ++ event :: rest →
      world.Forced ruma roomId visited state →
      Meets (fun _ => world.Forced ruma roomId (visited ++ [event]))
        (fun _ _ => False) (forceEvent ruma services roomId event state) := by
    intro visited event rest state whole forced
    have member : ∀ other ∈ visited ++ event :: rest, other ∈ added := by
      intro other inside
      rw [← whole] at inside
      exact (Finset.mem_sort _).mp inside
    have inside := member event (by simp)
    have nodup : (visited ++ event :: rest).Nodup := by
      rw [← whole]
      exact Finset.sort_nodup added _
    refine forceEvent_spec issued (described event inside)
      (followable event inside) ?_ forced
    intro other earlier same
    have otherInside := member other (mem_append_left _ earlier)
    have equal := distinct other otherInside event inside same
    exact (nodup_append.mp nodup).2.2 other earlier event mem_cons_self equal
  have loop := Meets.forM (world.Forced ruma roomId) step added.sort [] world
    rfl (.start world)
  unfold forceState
  cases result : added.sort.forM (forceEvent ruma services roomId) world with
  | error error state =>
      rw [result] at loop
      exact absurd loop id
  | ok value visited =>
      rw [result] at loop
      rw [bind_of_ok _ result]
      exact ⟨visited, _, rfl, loop, rfl, rfl, rfl⟩

end

end StateWorld

end ArcanaServer.Rooms
