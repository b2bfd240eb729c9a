import ArcanaServer.Rooms.CacheAgreement
import ArcanaServer.StateRes.RoomVersion

namespace ArcanaServer.Rooms

open Short Store
open Library ArcanaServer.Matrix StateCompressor MemberServices Function Option
open StateRes

variable {Digest : Type} [DecidableEq Digest]

/-! Runs of the calls, in which the cache follows the states of the rooms. -/

namespace Store

variable {calculateHash : List CompressedStateEvent → Digest}
  {store : Store Digest} {roomId : RoomId} {state : CompressedState}
  {stack : List ShortStateInfo}

omit [DecidableEq Digest] in
theorem loadParents_withShort (store : Store Digest) (short : Short Digest)
    (previous : Option ShortStateHash) :
    (loadParents { store with short } previous).1 =
      (store.loadParents previous).1 := by
  cases previous <;> rfl

/-- What a save adds is what the state has beyond the state of the room, unless
the room has that very hash. -/
theorem saveState_added
    (loaded : (store.loadParents (store.roomidShortstatehash roomId)).1 =
      .ok stack)
    {answer : HashSetCompressStateEvent} {after : Store Digest}
    (saved : store.saveState calculateHash roomId state = (.ok answer, after)) :
    answer.added = (diffTo stack state).added ∨ answer.added = ∅ ∧
        some answer.shortstatehash = store.roomidShortstatehash roomId := by
  simp only [saveState] at saved
  split at saved
  next same =>
    cases saved
    exact .inr ⟨rfl, same⟩
  · left
    have kept := loadParents_withShort store
      (store.short.getOrCreateShortstatehash
        (calculateHash state.sort)).2 (store.roomidShortstatehash roomId)
    rw [kept, loaded] at saved
    split at saved
    · cases saved
      rfl
    · have answered := congrArg Prod.fst saved
      unfold answering at answered
      cases result : (saveFromDiff (loadParents { store with
          short := (store.short.getOrCreateShortstatehash
            (calculateHash state.sort)).2 }
          (store.roomidShortstatehash roomId)).2
          (store.short.getOrCreateShortstatehash (calculateHash state.sort)).1.1
          (diffTo stack state) 2 stack).1 with
      | error failure =>
          simp [Except.toOption, result, Except.map] at answered
      | ok =>
          simp only [Except.toOption, getD_some, result,
            Except.map] at answered
          cases answered
          rfl

def DrawsHash (before after : Store Digest) : Prop :=
  ∃ counter rows, before.short.counter ≤ counter ∧
    after.short = { before.short with
      counter, statehashShortstatehash := rows }

theorem saveState_spec (sound : store.Sound)
    (parents : store.ParentsOf (store.roomidShortstatehash roomId) stack)
    (keyed : Keyed state) (savable : match store.short.statehashShortstatehash
        (calculateHash state.sort) with
      | none => store.short.counter < u64Max
      | some hash => store.Holds hash state) :
    ∃ result after,
      store.saveState calculateHash roomId state = (result, after) ∧
        Advances store after ∧ DrawsHash store after ∧
        ∀ answer, result = .ok answer →
          after.Holds answer.shortstatehash state ∧
            answer.added = state \ baseOf stack := by
  obtain ⟨cache, loaded, loads⟩ := loadParents_spec sound parents
  have isLoaded := congrArg Prod.fst loaded
  have added : ∀ {answer after}, Advances store after →
      store.saveState calculateHash roomId state = (.ok answer, after) →
      after.Holds answer.shortstatehash state →
      answer.added = state \ baseOf stack := by
    intro answer after advances saved holds
    rcases saveState_added isLoaded saved with isDiff | same
    · rw [isDiff, diffTo_eq]
      rfl
    · obtain ⟨nothing, isCurrent⟩ := same
      rw [← isCurrent] at parents
      obtain ⟨current, stands⟩ := holds
      have sameStack := stands.stackOf.unique (parents.1.mono advances.table)
      rw [nothing, ← stands.ends, sameStack, Finset.sdiff_self]
  cases row : store.short.statehashShortstatehash
      (calculateHash state.sort) with
  | none =>
      rw [row] at savable
      by_cases fits : Fits (diffTo stack state) 2 stack
      · obtain ⟨answer, compressor, saved, isHash, advances, holds⟩ :=
          saveState_new calculateHash sound row savable parents keyed fits
        refine ⟨_, _, saved, advances, ⟨_, _, Nat.le_succ _, rfl⟩, ?_⟩
        intro other same
        cases same
        rw [isHash]
        exact ⟨holds, added advances saved (isHash ▸ holds)⟩
      · obtain ⟨after, saved, advances, short, _⟩ :=
          saveState_failed calculateHash sound row savable parents
            fun compressor => saveStateFromDiff_unfit compressor _ _ _ _ fits
        refine ⟨_, _, saved, advances, ⟨_, _, Nat.le_succ _, short⟩, ?_⟩
        intro answer same
        cases same
  | some hash =>
      rw [row] at savable
      obtain ⟨answer, compressor, saved, isHash, advances, _⟩ :=
        saveState_known calculateHash sound row parents
      have holds := savable.mono advances
      refine ⟨_, _, saved, advances, ⟨_, _, Nat.le_refl _, rfl⟩, ?_⟩
      intro other same
      cases same
      rw [isHash]
      exact ⟨holds, added advances saved (isHash ▸ holds)⟩

end Store

namespace StateWorld

variable (ruma : Ruma)

/-- The cache agrees with the state, whose member events can all be read. -/
structure Tracks (world : StateWorld Digest) (roomId : RoomId)
    (state : CompressedState) : Prop where
  keyed : ∀ event ∈ state, ∃ key,
    world.store.short.statekeyShortstatekey key = some (keyOf event)
  readable : ∀ event ∈ state, ∀ userId, world.Names ruma event userId →
    ∃ pdu, world.pduOf event = some pdu
  joined : ∀ userId, (roomId, userId) ∈ world.members.cache.roomuseridJoined ↔
      ∃ event ∈ state, world.Names ruma event userId ∧ world.Joins ruma event

structure Grows (before after : StateWorld Digest) : Prop where
  keys : ∀ key id, before.store.short.statekeyShortstatekey key = some id →
    after.store.short.statekeyShortstatekey key = some id
  fresh : ∀ key id, after.store.short.statekeyShortstatekey key = some id →
    before.store.short.statekeyShortstatekey key = some id ∨
      before.store.short.counter < id
  pdus : ∀ event pdu, before.pduOf event = some pdu →
    after.pduOf event = some pdu

structure Following (world : StateWorld Digest) : Prop where
  sound : world.store.Sound
  issued : world.Issued
  valid : ∀ roomId userId,
    (roomId, userId) ∈ world.members.cache.roomuseridJoined →
      ruma.validUserId userId = true
  rooms : ∀ roomId hash, world.store.roomidShortstatehash roomId = some hash →
    ∃ state, Proper state ∧ world.store.Holds hash state ∧
      world.Tracks ruma roomId state

variable {ruma} {world before after : StateWorld Digest} {roomId : RoomId}
  {state : CompressedState} {services : MemberServices}

section

omit [DecidableEq Digest]

theorem joinedIn_iff {userId : UserId} : world.JoinedIn ruma state userId ↔
      ∃ event ∈ state, world.Names ruma event userId ∧
        world.Joins ruma event := by
  constructor
  · intro joined
    obtain ⟨valid, event, inside, key, joins⟩ := joined
    exact ⟨event, inside, ⟨valid, key⟩, joins⟩
  · intro found
    obtain ⟨event, inside, names, joins⟩ := found
    exact ⟨names.1, event, inside, names.2, joins⟩

theorem Tracks.grow (tracks : before.Tracks ruma roomId state)
    (issued : before.Issued) (grows : Grows before after)
    (same : ∀ userId, (roomId, userId) ∈ after.members.cache.roomuseridJoined ↔
        (roomId, userId) ∈ before.members.cache.roomuseridJoined) :
    after.Tracks ruma roomId state := by
  have names : ∀ event ∈ state, ∀ userId,
      after.Names ruma event userId ↔ before.Names ruma event userId := by
    intro event inside userId
    refine and_congr_right fun _ => ⟨fun key => ?_, grows.keys _ _⟩
    rcases grows.fresh _ _ key with old | above
    · exact old
    · obtain ⟨drawn, isDrawn⟩ := tracks.keyed event inside
      exact absurd (issued.keys _ _ isDrawn) (Nat.not_le_of_lt above)
  have joins : ∀ event ∈ state, ∀ userId, before.Names ruma event userId →
      (after.Joins ruma event ↔ before.Joins ruma event) := by
    intro event inside userId isNamed
    obtain ⟨pdu, found⟩ := tracks.readable event inside userId isNamed
    have still := grows.pdus event pdu found
    simp only [Joins, found, still]
  refine ⟨?_, ?_, ?_⟩
  · intro event inside
    obtain ⟨key, drawn⟩ := tracks.keyed event inside
    exact ⟨key, grows.keys _ _ drawn⟩
  · intro event inside userId isNamed
    obtain ⟨pdu, found⟩ := tracks.readable event inside userId
      ((names event inside userId).mp isNamed)
    exact ⟨pdu, grows.pdus event pdu found⟩
  · intro userId
    rw [same userId, tracks.joined userId]
    refine exists_congr fun event => and_congr_right fun inside => ?_
    rw [names event inside userId]
    exact and_congr_right fun isNamed =>
      (joins event inside userId isNamed).symm

theorem Following.current (following : world.Following ruma) (roomId : RoomId) :
    ∃ stack, world.store.ParentsOf (world.store.roomidShortstatehash roomId)
        stack ∧
      world.currentState roomId = baseOf stack ∧ Proper (baseOf stack) ∧
      ∀ event ∈ baseOf stack, world.Tracks ruma roomId (baseOf stack) := by
  unfold currentState
  cases current : world.store.roomidShortstatehash roomId with
  | none =>
      refine ⟨[], rfl, rfl, proper_empty, ?_⟩
      intro event member
      exact absurd member (Finset.notMem_empty event)
  | some hash =>
      obtain ⟨state, proper, ⟨stack, stands⟩, tracks⟩ :=
        following.rooms roomId hash current
      have parents : world.store.ParentsOf (some hash) stack :=
        ⟨stands.stackOf, stands.layered⟩
      obtain ⟨cache, loaded, _⟩ :=
        loadParents_spec following.sound parents
      refine ⟨stack, parents, ?_, ?_, ?_⟩
      · rw [loaded]
        rfl
      · rw [stands.ends]
        exact proper
      · intro _ _
        rw [stands.ends]
        exact tracks

theorem Following.grow (following : before.Following ruma)
    (advances : Store.Advances before.store after.store)
    (issued : after.Issued) (grows : Grows before after)
    (same : ∀ key, key ∈ after.members.cache.roomuseridJoined ↔
      key ∈ before.members.cache.roomuseridJoined) :
    after.Following ruma := by
  refine ⟨advances.sound, issued, ?_, ?_⟩
  · intro roomId userId joined
    exact following.valid roomId userId ((same _).mp joined)
  · intro roomId hash isHash
    rw [advances.rooms] at isHash
    obtain ⟨state, proper, holds, tracks⟩ := following.rooms roomId hash isHash
    exact ⟨state, proper, holds.mono advances,
      tracks.grow following.issued grows fun userId => same _⟩

end

omit [DecidableEq Digest] in
theorem Grows.withShort {short : Short Digest}
    (keys : ∀ key id, world.store.short.statekeyShortstatekey key = some id →
      short.statekeyShortstatekey key = some id)
    (fresh : ∀ key id, short.statekeyShortstatekey key = some id →
      world.store.short.statekeyShortstatekey key = some id ∨
        world.store.short.counter < id)
    (events : ∀ id eventId,
      world.store.short.shorteventidEventid id = some eventId →
        short.shorteventidEventid id = some eventId) :
    Grows world (world.withShort short) := by
  refine ⟨keys, fresh, ?_⟩
  intro event pdu found
  obtain ⟨eventId, named, stored⟩ := bind_eq_some_iff.mp found
  exact bind_eq_some_iff.mpr ⟨eventId, events _ _ named, stored⟩

omit [DecidableEq Digest] in
theorem Issued.draws (issued : before.Issued)
    (draws : Store.DrawsHash before.store after.store) : after.Issued := by
  obtain ⟨counter, rows, grows, short⟩ := draws
  refine ⟨?_, ?_, ?_⟩
  · rw [short]
    exact issued.named
  · intro key id drawn
    rw [short] at drawn ⊢
    exact Nat.le_trans (issued.keys key id drawn) grows
  · intro id eventId drawn
    rw [short] at drawn ⊢
    exact Nat.le_trans (issued.events id eventId drawn) grows

section

variable (following : world.Following ruma)
include following
omit [DecidableEq Digest]

theorem Following.draws {store : Store Digest}
    (advances : Store.Advances world.store store)
    (draws : Store.DrawsHash world.store store) :
    ({ world with store } : StateWorld Digest).Following ruma := by
  have issued : ({ world with store } : StateWorld Digest).Issued :=
    following.issued.draws draws
  obtain ⟨counter, rows, _, short⟩ := draws
  obtain ⟨_, compressor, rooms, events⟩ := store
  subst short
  refine following.grow advances issued ?_ fun _ => Iff.rfl
  · exact ⟨fun _ _ drawn => drawn, fun _ _ drawn => .inl drawn,
      fun _ _ found => found⟩

theorem Following.nextCount :
    (world.withShort world.store.short.nextCount.2).Following ruma :=
  following.draws
    (following.sound.withShort (nextCount_le _) following.sound.positive)
    ⟨_, _, nextCount_le _, rfl⟩

theorem Following.nameEvent (eventId : EventId)
    (fits : world.store.short.eventidShorteventid eventId = none →
      world.store.short.counter < u64Max) :
    (world.withShort
      (world.store.short.getOrCreateShorteventid eventId).2).Following
        ruma := by
  have advances := following.sound.withEvent eventId
  cases known : world.store.short.eventidShorteventid eventId with
  | some shorteventid =>
      have same : (world.store.short.getOrCreateShorteventid eventId).2 =
          world.store.short := by
        simp only [getOrCreateShorteventid, known]
      rw [same]
      exact following
  | none =>
      have drawn : (world.store.short.getOrCreateShorteventid eventId).2 =
          { world.store.short with
            counter := world.store.short.counter + 1
            eventidShorteventid :=
              update world.store.short.eventidShorteventid eventId
                (some (world.store.short.counter + 1))
            shorteventidEventid := update world.store.short.shorteventidEventid
                (world.store.short.counter + 1) (some eventId) } := by
        simp only [getOrCreateShorteventid, known,
          createShorteventid, nextCount_of_lt (fits known)]
      rw [drawn]
      rw [withEvent, drawn] at advances
      refine following.grow advances ?_ (.withShort ?_ ?_ ?_) fun _ => Iff.rfl
      · refine ⟨following.issued.named, fun key id known => Nat.le_succ_of_le
            (following.issued.keys key id known), ?_⟩
        intro id other named
        rcases update_eq_some named with old | new
        · exact Nat.le_succ_of_le (following.issued.events _ _ old)
        · exact Nat.le_of_eq new.1
      · exact fun _ _ old => old
      · exact fun _ _ old => .inl old
      · intro id other named
        have bounded := following.issued.events id other named
        have apart : id ≠ world.store.short.counter + 1 :=
          Nat.ne_of_lt (Nat.lt_succ_of_le bounded)
        rw [← named]
        exact update_of_ne apart _ _

theorem Following.nameKey (key : TypeStateKey)
    (fits : world.store.short.statekeyShortstatekey key = none →
      world.store.short.counter < u64Max) :
    (world.withShort
      (world.store.short.getOrCreateShortstatekey key).2).Following ruma := by
  have advances := following.sound.withKey key
  cases known : world.store.short.statekeyShortstatekey key with
  | some shortstatekey =>
      have same : (world.store.short.getOrCreateShortstatekey key).2 =
          world.store.short := by
        simp only [getOrCreateShortstatekey, known]
      rw [same]
      exact following
  | none =>
      have drawn : (world.store.short.getOrCreateShortstatekey key).2 =
          { world.store.short with
            counter := world.store.short.counter + 1
            statekeyShortstatekey :=
              update world.store.short.statekeyShortstatekey key
                (some (world.store.short.counter + 1))
            shortstatekeyStatekey :=
              update world.store.short.shortstatekeyStatekey
                (world.store.short.counter + 1) (some key) } := by
        simp only [getOrCreateShortstatekey, known,
          nextCount_of_lt (fits known)]
      rw [drawn]
      rw [withKey, drawn] at advances
      refine following.grow advances ⟨?_, ?_, ?_⟩ (.withShort ?_ ?_ ?_)
        fun _ => Iff.rfl
      · intro other id found
        rcases update_eq_some found with old | new
        · have bounded := following.issued.keys other id old
          rw [← following.issued.named other id old]
          exact update_of_ne (Nat.ne_of_lt (Nat.lt_succ_of_le bounded)) _ _
        · rw [new.1, new.2]
          exact update_self _ _ _
      · intro other id found
        rcases update_eq_some found with old | new
        · exact Nat.le_succ_of_le (following.issued.keys _ _ old)
        · exact Nat.le_of_eq new.2
      · exact fun id eventId found => Nat.le_succ_of_le
          (following.issued.events id eventId found)
      · intro other id old
        have apart : other ≠ key := by
          intro same
          rw [same, known] at old
          cases old
        rw [← old]
        exact update_of_ne apart _ _
      · intro other id found
        rcases update_eq_some found with old | new
        · exact .inl old
        · exact .inr (new.2 ▸ Nat.lt_succ_self _)
      · exact fun _ _ found => found

theorem Following.storePdu (pdu : Pdu) :
    (world.storePdu pdu).Following ruma := by
  unfold StateWorld.storePdu
  split
  · exact following
  next missing =>
    refine following.grow ⟨following.sound, fun _ _ found => found, rfl⟩
      ⟨following.issued.named, following.issued.keys, following.issued.events⟩
      ⟨fun _ _ found => found, fun _ _ found => .inl found, ?_⟩
      fun _ => Iff.rfl
    intro event other found
    obtain ⟨eventId, named, stored⟩ := bind_eq_some_iff.mp found
    refine bind_eq_some_iff.mpr ⟨eventId, named, ?_⟩
    have apart : eventId ≠ pdu.eventId := by
      intro same
      rw [same, missing] at stored
      cases stored
    rw [← stored]
    exact update_of_ne apart _ _

end

section

omit [DecidableEq Digest]

variable {shortstatehash : ShortStateHash}

theorem Forced.grows {visited : List CompressedStateEvent}
    (forced : before.Forced ruma roomId visited world)
    (store : after.store = world.store.setRoomState roomId shortstatehash)
    (pdus : after.pdus = world.pdus) : Grows before after := by
  obtain ⟨counter, _, isStore⟩ := forced.store
  have keys : after.store.short.statekeyShortstatekey =
      before.store.short.statekeyShortstatekey := by
    rw [store, isStore]
    rfl
  refine ⟨?_, ?_, ?_⟩
  · intro key id drawn
    rw [keys]
    exact drawn
  · intro key id drawn
    rw [keys] at drawn
    exact .inl drawn
  · intro event pdu found
    rw [← forced.pduOf event] at found
    unfold StateWorld.pduOf at found ⊢
    rw [store, pdus]
    exact found

theorem Tracks.agrees (tracks : world.Tracks ruma roomId state)
    (sound : world.store.Sound) (holds : world.store.Holds shortstatehash state) :
    world.Agrees ruma roomId shortstatehash := by
  obtain ⟨top, below, loaded, full⟩ := load_of_holds sound holds
  refine ⟨top, below, loaded, ?_⟩
  intro userId
  rw [full, mem_roomMembers, joinedIn_iff]
  exact tracks.joined userId

variable {result : StateWorld Digest} {old : CompressedState}
  (following : world.Following ruma) (proper : Proper state)
  (oldProper : Proper old)
  (tracked : ∀ event ∈ old, world.Tracks ruma roomId old)
  (kept : ∀ userId ∈ world.members.cache.roomMembers roomId, ∃ event ∈ state,
    world.store.short.statekeyShortstatekey (.roomMember, userId) =
      some (keyOf event))
include following proper oldProper tracked kept

/-- After the loop the cache reports those as joined whom the new state has
joined.  An entry that the loop has not visited is one of the old state, and a
user without an entry was not reported before. -/
theorem Forced.joined
    (done : world.Forced ruma roomId (state \ old).sort result)
    (userId : UserId) :
    (roomId, userId) ∈ result.members.cache.roomuseridJoined ↔
      ∃ event ∈ state, world.Names ruma event userId ∧
        world.Joins ruma event := by
  have new : ∀ event ∈ (state \ old).sort, event ∈ state ∧ event ∉ old := by
    intro event visited
    exact Finset.mem_sdiff.mp ((Finset.mem_sort _).mp visited)
  have unique : ∀ {entries : CompressedState}, Proper entries →
      ∀ {event}, event ∈ entries → world.Names ruma event userId →
      ((∃ other ∈ entries, world.Names ruma other userId ∧
        world.Joins ruma other) ↔ world.Joins ruma event) := by
    intro entries isProper event inside names
    constructor
    · intro found
      obtain ⟨other, otherInside, otherNames, joins⟩ := found
      have sameKey := some.inj (otherNames.2.symm.trans names.2)
      exact isProper.functional other otherInside event inside sameKey ▸ joins
    · exact fun joins => ⟨event, inside, names, joins⟩
  by_cases entry : ∃ event ∈ state, world.Names ruma event userId
  · obtain ⟨event, inside, names⟩ := entry
    rw [unique proper inside names]
    by_cases inOld : event ∈ old
    · rw [← unique oldProper inOld names, ← (tracked event inOld).joined userId]
      refine done.others roomId userId fun _ other visited otherNames => ?_
      obtain ⟨otherInside, notOld⟩ := new other visited
      have sameKey := some.inj (otherNames.2.symm.trans names.2)
      have same := proper.functional other otherInside event inside sameKey
      exact notOld (same ▸ inOld)
    · exact done.placed event ((Finset.mem_sort _).mpr
        (Finset.mem_sdiff.mpr ⟨inside, inOld⟩)) userId names
  · refine iff_of_false ?_ fun found => ?_
    · intro reported
      have before := (done.others roomId userId fun _ other visited names =>
        entry ⟨other, (new other visited).1, names⟩).mp reported
      obtain ⟨event, inside, key⟩ := kept userId (mem_roomMembers.mpr before)
      exact entry ⟨event, inside, following.valid roomId userId before, key⟩
    · obtain ⟨event, inside, names, _⟩ := found
      exact entry ⟨event, inside, names⟩

theorem Forced.tracks
    (described : ∀ event ∈ state, world.Described event)
    (followable : ∀ event ∈ state \ old,
      world.Followable ruma services roomId event)
    (done : world.Forced ruma roomId (state \ old).sort result)
    (grows : Grows world after)
    (members : after.members.cache.roomuseridJoined =
      result.members.cache.roomuseridJoined) :
    after.Tracks ruma roomId state := by
  have readable : ∀ event ∈ state, ∀ userId, world.Names ruma event userId →
        ∃ pdu, world.pduOf event = some pdu := by
    intro event inside userId names
    by_cases inOld : event ∈ old
    · exact (tracked event inOld).readable event inOld userId names
    · have key := following.issued.named _ _ names.2
      obtain ⟨pdu, found, _⟩ := followable event
        (Finset.mem_sdiff.mpr ⟨inside, inOld⟩) _ key rfl names.1
      exact ⟨pdu, found⟩
  have moved : Tracks ruma { world with members := after.members } roomId
      state := by
    refine ⟨?_, readable, ?_⟩
    · intro event inside
      obtain ⟨key, _, drawn⟩ := (described event inside).keyed
      exact ⟨key, drawn⟩
    · intro userId
      rw [members]
      exact done.joined following proper oldProper tracked kept userId
  exact moved.grow ⟨following.issued.named, following.issued.keys,
    following.issued.events⟩ ⟨grows.keys, grows.fresh, grows.pdus⟩
    fun _ => Iff.rfl

/-- The call that has set the state of a room leaves the cache following. -/
theorem Following.forced
    (described : ∀ event ∈ state, world.Described event)
    (followable : ∀ event ∈ state \ old,
      world.Followable ruma services roomId event)
    (holds : world.store.Holds shortstatehash state) (removed : CompressedState) :
    ∃ after, forceState ruma services roomId shortstatehash (state \ old)
        removed world = .ok () after ∧ after.Following ruma ∧
      after.Agrees ruma roomId shortstatehash := by
  obtain ⟨visited, after, result, done, store, pdus, members⟩ :=
    forceState_spec following.issued
      (fun left leftNew right rightNew => proper.functional left
        (Finset.mem_sdiff.mp leftNew).1 right (Finset.mem_sdiff.mp rightNew).1)
      (fun event new => described event (Finset.mem_sdiff.mp new).1)
      followable shortstatehash
  refine ⟨after, result, ?_⟩
  have grows := done.grows store pdus
  have tracks := done.tracks following proper oldProper tracked kept described
    followable grows members
  obtain ⟨counter, above, isStore⟩ := done.store
  rw [isStore] at store
  have counted : Store.Advances world.store (withCounter world.store counter) :=
    following.sound.withShort above following.sound.positive
  have sound : after.store.Sound := by
    rw [store]
    exact ⟨counted.sound.cache, counted.sound.bounded, counted.sound.frames,
      counted.sound.positive⟩
  have stays : ∀ {hash entries}, world.store.Holds hash entries →
      after.store.Holds hash entries := by
    intro hash entries holds
    rw [store]
    exact holds
  have elsewhere : ∀ otherRoom userId, otherRoom ≠ roomId →
      ((otherRoom, userId) ∈ after.members.cache.roomuseridJoined ↔
        (otherRoom, userId) ∈ world.members.cache.roomuseridJoined) := by
    intro otherRoom userId other
    rw [members]
    exact done.others otherRoom userId fun here => absurd here other
  refine ⟨⟨sound, ?_, ?_, ?_⟩, tracks.agrees sound (stays holds)⟩
  · refine following.issued.draws
      ⟨counter, world.store.short.statehashShortstatehash, above, ?_⟩
    rw [store]
    rfl
  · intro otherRoom userId reported
    by_cases here : otherRoom = roomId
    · rw [here] at reported
      obtain ⟨_, _, names, _⟩ := (tracks.joined userId).mp reported
      exact names.1
    · exact following.valid otherRoom userId
        ((elsewhere otherRoom userId here).mp reported)
  · intro otherRoom hash isHash
    rw [store] at isHash
    by_cases here : otherRoom = roomId
    · rw [here] at isHash ⊢
      have same : shortstatehash = hash := some.inj
        ((update_self roomId _ _).symm.trans isHash)
      exact ⟨state, proper, stays (same ▸ holds), tracks⟩
    · have isOld : world.store.roomidShortstatehash otherRoom = some hash :=
        (update_of_ne here _ _).symm.trans isHash
      obtain ⟨entries, entriesProper, entriesHold, entriesTracks⟩ :=
        following.rooms otherRoom hash isOld
      exact ⟨entries, entriesProper, stays entriesHold,
        entriesTracks.grow following.issued grows
          fun userId => elsewhere otherRoom userId here⟩

end

section

variable {calculateHash : List CompressedStateEvent → Digest}

theorem Following.saveAndForce (following : world.Following ruma)
    (newState : RoomState)
    (trackable : world.Trackable calculateHash ruma services roomId
      newState.entries) :
    (world.saveAndForce calculateHash ruma services roomId
        newState.entries).1.Following ruma ∧
      ∀ hash result, (world.saveAndForce calculateHash ruma services roomId
            newState.entries).2 = .forced hash result →
          result = .ok () ∧
            (world.saveAndForce calculateHash ruma services roomId
              newState.entries).1.Agrees ruma roomId hash := by
  obtain ⟨stack, parents, isCurrent, oldProper, tracked⟩ :=
    following.current roomId
  obtain ⟨described, savable, kept, followable⟩ := trackable
  rw [isCurrent] at followable
  obtain ⟨result, store, saved, advances, draws, answered⟩ :=
    saveState_spec following.sound parents newState.proper.keyed savable
  have between := following.draws advances draws
  unfold StateWorld.saveAndForce
  rw [saved]
  cases result with
  | error failure =>
      refine ⟨between, ?_⟩
      intro hash result forced
      cases forced
  | ok answer =>
      obtain ⟨holds, added⟩ := answered answer rfl
      obtain ⟨counter, rows, above, short⟩ := draws
      obtain ⟨_, compressor, rooms, events⟩ := store
      subst short
      obtain ⟨after, forces, follows, agrees⟩ := between.forced
        newState.proper oldProper
        (fun event inside => (tracked event inside).grow following.issued
          ⟨fun _ _ drawn => drawn, fun _ _ drawn => .inl drawn,
            fun _ _ found => found⟩ fun _ => Iff.rfl)
        kept
        (fun event inside =>
          ⟨(described event inside).keyed, (described event inside).sits⟩)
        followable holds answer.removed
      simp only [added, forces]
      refine ⟨follows, ?_⟩
      intro hash result forced
      cases forced
      exact ⟨rfl, agrees⟩

variable (calculateHash ruma)

def Follows
    (entry : Entry (StateWorld Digest) ForceInput ForceOutput) : Prop :=
  match entry.input with
  | .nameEvent eventId =>
      entry.before.store.short.eventidShorteventid eventId = none →
        entry.before.store.short.counter < u64Max
  | .nameKey key =>
      entry.before.store.short.statekeyShortstatekey key = none →
        entry.before.store.short.counter < u64Max
  | .forceState services roomId state =>
      entry.before.Trackable calculateHash ruma services roomId state.entries
  | .nextCount | .storePdu _ => True

omit [DecidableEq Digest] in
theorem following_empty (cacheCapacity : Nat) :
    (empty cacheCapacity : StateWorld Digest).Following ruma := by
  refine ⟨sound_empty cacheCapacity, ⟨?_, ?_, ?_⟩, ?_, ?_⟩
  · intro key id found
    cases found
  · intro key id found
    cases found
  · intro id eventId found
    cases found
  · intro roomId userId reported
    exact absurd reported (AList.notMem_empty _)
  · intro roomId hash found
    cases found

variable {calculateHash ruma}

theorem Following.step (following : world.Following ruma) (input : ForceInput)
    (follows : Follows ruma calculateHash
      (entryOf (StateWorld.step calculateHash ruma) world input)) :
    (world.step calculateHash ruma input).1.Following ruma := by
  cases input with
  | nextCount => exact following.nextCount
  | nameEvent eventId => exact following.nameEvent eventId follows
  | nameKey key => exact following.nameKey key follows
  | storePdu pdu => exact following.storePdu pdu
  | forceState services roomId state =>
      exact (following.saveAndForce state follows).1

theorem following_of_reaches {cacheCapacity : Nat}
    {history : List (Entry (StateWorld Digest) ForceInput ForceOutput)}
    (reached : Reaches (step calculateHash ruma) (empty cacheCapacity)
      history world)
    (follows : Always (fun _ => Follows ruma calculateHash) history) :
    world.Following ruma :=
  reached.invariant (fun _ world => world.Following ruma)
    (following_empty ruma cacheCapacity)
    (fun _ _ input following follows => following.step input follows) follows

/-- In a run in which the cache can follow each state that a room is set to,
every call succeeds, and after it the cache reports those users of the room as
joined whose member entry in the full state has membership join. -/
theorem agrees_of_follows {cacheCapacity : Nat}
    {history : List (Entry (StateWorld Digest) ForceInput ForceOutput)}
    (reached : Reaches (step calculateHash ruma) (empty cacheCapacity)
      history world)
    (follows : Always (fun _ => Follows ruma calculateHash) history)
    {earlier later : List (Entry (StateWorld Digest) ForceInput ForceOutput)}
    {entry : Entry (StateWorld Digest) ForceInput ForceOutput}
    (split : history = earlier ++ entry :: later)
    {services : MemberServices} {roomId : RoomId} {state : RoomState}
    (calls : entry.input = .forceState services roomId state)
    {hash : ShortStateHash} {result : Except MemberError Unit}
    (forced : entry.output = .forced hash result) :
    result = .ok () ∧
      (entry.before.step calculateHash ruma entry.input).1.Agrees ruma
        roomId hash := by
  obtain ⟨before, isEntry⟩ := reached.entry split
  have initial : Always (fun _ => Follows ruma calculateHash) earlier :=
    (split ▸ follows).initial
  have following := following_of_reaches before initial
  have trackable := follows earlier entry later split
  rw [isEntry] at trackable forced
  rw [calls] at trackable forced ⊢
  exact (following.saveAndForce state trackable).2 hash result forced

end

end StateWorld

/-! Two runs in a room with one user: one in which she joins the room, and one
that then brings back the state before that. -/

theorem StateWorld.saveAndForce_congr {Digest : Type} [DecidableEq Digest]
    {one other : List CompressedStateEvent → Digest} {ruma : Ruma}
    {world : StateWorld Digest} {services : MemberServices} {roomId : RoomId}
    {state : CompressedState} (same : one state.sort = other state.sort) :
    world.saveAndForce one ruma services roomId state =
      world.saveAndForce other ruma services roomId state := by
  simp only [saveAndForce, saveState, same]

def aliceJoin : Pdu :=
  { Pdu.message "$join" "!room:here" "@alice:here" with
    kind := .roomMember, content := .obj [("membership", .str "join")],
    stateKey := some "@alice:here" }

def createPdu : Pdu :=
  { aliceJoin with
    eventId := "$create", kind := .roomCreate, stateKey := some "" }

def joinState : RoomState where
  entries := replaceEntry createState.entries (compressStateEvent 4 5)
  proper := createState.proper.replaceEntry (by decide)

def joinDigest : List CompressedStateEvent :=
  [compressStateEvent 1 2, compressStateEvent 4 5]

theorem joinState_digest : listHash joinState.entries.sort = joinDigest := by
  have entries : joinState.entries =
      insert (compressStateEvent 1 2) {compressStateEvent 4 5} := by
    decide
  unfold listHash
  rw [entries, Finset.sort_insert _ (by decide) (by decide),
    Finset.sort_singleton]
  rfl

def createInputs : List ForceInput :=
  [.nameKey (.roomCreate, ""), .nameEvent "$create", .storePdu createPdu,
    .forceState plainMembers "!room:here" createState,
    .nameKey (.roomMember, "@alice:here"), .nameEvent "$join",
    .storePdu aliceJoin]

def aliceJoins : ForceInput :=
  .forceState plainMembers "!room:here" joinState

abbrev PlainWorld := StateWorld (List CompressedStateEvent)

abbrev plainStep : PlainWorld → ForceInput → PlainWorld × ForceOutput :=
  StateWorld.step listHash StateRes.plainIdentifiers

def createdWorld : PlainWorld :=
  (run plainStep (StateWorld.empty 16) createInputs).2

/-- `Follows` for a state whose hash is new, which can be decided. -/
def NewlyFollows
    (calculateHash : List CompressedStateEvent → List CompressedStateEvent)
    (world : PlainWorld) : ForceInput → Prop
  | .nameEvent _ | .nameKey _ => world.store.short.counter < u64Max
  | .forceState services roomId state =>
      (world.store.short.statehashShortstatehash
          (calculateHash state.entries.sort) = none ∧
        world.store.short.counter < u64Max) ∧
      (∀ event ∈ state.entries, world.Described event) ∧
      (∀ userId ∈ world.members.cache.roomMembers roomId,
        ∃ event ∈ state.entries,
          world.store.short.statekeyShortstatekey (.roomMember, userId) =
            some (keyOf event)) ∧
      ∀ event ∈ state.entries \ world.currentState roomId,
        world.Followable StateRes.plainIdentifiers services roomId event
  | .nextCount | .storePdu _ => True

instance (calculateHash : List CompressedStateEvent → List CompressedStateEvent)
    (world : PlainWorld) (input : ForceInput) :
    Decidable (NewlyFollows calculateHash world input) :=
  match input with
  | .nameEvent _ | .nameKey _ => inferInstanceAs (Decidable (_ < _))
  | .forceState _ _ _ => inferInstanceAs (Decidable (_ ∧ _ ∧ _ ∧ _))
  | .nextCount | .storePdu _ => isTrue trivial

theorem NewlyFollows.follows
    {calculateHash : List CompressedStateEvent → List CompressedStateEvent}
    {entry : Entry PlainWorld ForceInput ForceOutput}
    (newly : NewlyFollows calculateHash entry.before entry.input)
    (same : ∀ services roomId state,
      entry.input = .forceState services roomId state →
        listHash state.entries.sort = calculateHash state.entries.sort) :
    StateWorld.Follows plainIdentifiers listHash entry := by
  obtain ⟨before, input, output⟩ := entry
  cases input with
  | nextCount => trivial
  | nameEvent eventId | nameKey key => exact fun _ => newly
  | storePdu pdu => trivial
  | forceState services roomId state =>
      obtain ⟨⟨missing, fits⟩, described, kept, followable⟩ := newly
      refine ⟨described, ?_, kept, followable⟩
      have isNew : before.store.short.statehashShortstatehash
          (listHash state.entries.sort) = none := by
        rw [same services roomId state rfl]
        exact missing
      simp only [StateWorld.Savable, isNew]
      exact fits

theorem createInputs_follow :
    ∀ entry ∈ (run plainStep (StateWorld.empty 16) createInputs).1,
      StateWorld.Follows plainIdentifiers listHash entry := by
  have newly : ∀ entry ∈ (run plainStep (StateWorld.empty 16)
      createInputs).1, NewlyFollows listHash entry.before entry.input := by
    decide +kernel
  exact fun entry member => (newly entry member).follows fun _ _ _ _ => rfl

theorem aliceJoins_step : plainStep createdWorld aliceJoins =
      createdWorld.saveAndForce (fun _ => joinDigest) plainIdentifiers
        plainMembers "!room:here" joinState.entries :=
  StateWorld.saveAndForce_congr joinState_digest

theorem aliceJoins_forced :
    (plainStep createdWorld aliceJoins).2 = .forced 6 (.ok ()) := by
  rw [aliceJoins_step]
  decide +kernel

theorem aliceJoins_agrees :
    (plainStep createdWorld aliceJoins).1.Agrees plainIdentifiers
      "!room:here" 6 := by
  have newly : NewlyFollows (fun _ => joinDigest) createdWorld aliceJoins := by
    decide +kernel
  have last : StateWorld.Follows plainIdentifiers listHash
      (entryOf plainStep createdWorld aliceJoins) := by
    refine NewlyFollows.follows newly ?_
    intro services roomId state calls
    cases calls
    exact joinState_digest
  have follows := (Always.of_forall_mem createInputs_follow).snoc last
  exact (StateWorld.agrees_of_follows ((reaches_run _ _ _).next aliceJoins)
    follows rfl rfl aliceJoins_forced).2

/-- The room goes back to the state in which nobody has joined. -/
def joinIsLost : ForceInput :=
  .forceState plainMembers "!room:here" createState

theorem joinIsLost_disagrees :
    let joined := (plainStep createdWorld aliceJoins).1
    (plainStep joined joinIsLost).2 = .forced 3 (.ok ()) ∧
      ¬ (plainStep joined joinIsLost).1.Agrees plainIdentifiers
        "!room:here" 3 := by
  rw [aliceJoins_step]
  refine ⟨by decide +kernel, ?_⟩
  intro agrees
  obtain ⟨top, below, loaded, same⟩ := agrees
  generalize joined : plainStep (createdWorld.saveAndForce (fun _ => joinDigest)
    plainIdentifiers plainMembers "!room:here"
    joinState.entries).1 joinIsLost = after at loaded same
  have reported : "@alice:here" ∈
      after.1.members.cache.roomMembers "!room:here" := by
    rw [← joined]
    decide +kernel
  have full : (after.1.store.loadInfo 3).1.toOption.map baseOf =
      some {compressStateEvent 1 2} := by
    rw [← joined]
    decide +kernel
  have aliceKey : after.1.store.short.statekeyShortstatekey
      (.roomMember, "@alice:here") = some 4 := by
    rw [← joined]
    decide +kernel
  rw [loaded] at full
  obtain ⟨_, event, inside, key, _⟩ := (same "@alice:here").mp reported
  have entries : top.fullState = {compressStateEvent 1 2} :=
    some.inj full
  rw [entries, Finset.mem_singleton] at inside
  rw [aliceKey, inside] at key
  exact absurd key (by decide)

end ArcanaServer.Rooms
