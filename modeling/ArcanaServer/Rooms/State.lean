import ArcanaServer.Library.Trace
import ArcanaServer.Rooms.StateLayers

namespace ArcanaServer.Rooms

open Library ArcanaServer.Matrix StateCompressor Finset Nat

def keyOf (event : CompressedStateEvent) : ShortStateKey :=
  (parseCompressedStateEvent event).1

/-- A state has at most one event for each state key, and no state key is
zero: callers build it from a map whose keys are short ids. -/
structure Proper (state : CompressedState) : Prop where
  functional : ∀ left ∈ state, ∀ right ∈ state,
    keyOf left = keyOf right → left = right
  keyed : Keyed state

theorem proper_empty : Proper ∅ where
  functional left member := absurd member (notMem_empty left)
  keyed event member := absurd member (notMem_empty event)

def replaceEntry (state : CompressedState) (new : CompressedStateEvent) :
    CompressedState :=
  insert new (state.filter (fun event => keyOf event ≠ keyOf new))

def replaces (shortstatekey : ShortStateKey) (state : CompressedState) :
    Option CompressedStateEvent :=
  state.sort.find?
    (fun event => (parseCompressedStateEvent event).1 = shortstatekey)

def replaceDiff (state : CompressedState) (new : CompressedStateEvent) :
    Diff CompressedStateEvent where
  added := {new}
  removed := (replaces (keyOf new) state).elim ∅ (fun event => {event})

theorem replaces_eq_some {shortstatekey : ShortStateKey}
    {state : CompressedState} {event : CompressedStateEvent}
    (found : replaces shortstatekey state = some event) :
    event ∈ state ∧ keyOf event = shortstatekey := by
  constructor
  · exact (mem_sort _).mp (List.mem_of_find?_eq_some found)
  · simpa [keyOf] using List.find?_some found

theorem replaces_eq_none {shortstatekey : ShortStateKey}
    {state : CompressedState} (missing : replaces shortstatekey state = none) :
    ∀ event ∈ state, keyOf event ≠ shortstatekey := by
  intro event member
  have := List.find?_eq_none.mp missing event ((mem_sort _).mpr member)
  simpa [keyOf] using this

section

variable {state : CompressedState} {new : CompressedStateEvent}

theorem mem_replaceEntry {event : CompressedStateEvent} :
    event ∈ replaceEntry state new ↔
      event = new ∨ event ∈ state ∧ keyOf event ≠ keyOf new := by
  simp [replaceEntry]

theorem Proper.replaceEntry (proper : Proper state)
    (nonzero : keyOf new ≠ 0) : Proper (replaceEntry state new) := by
  constructor
  · intro left leftMember right rightMember same
    rcases mem_replaceEntry.mp leftMember with leftNew | leftOld
    · rcases mem_replaceEntry.mp rightMember with rightNew | rightOld
      · rw [leftNew, rightNew]
      · rw [leftNew] at same
        exact absurd same.symm rightOld.2
    · rcases mem_replaceEntry.mp rightMember with rightNew | rightOld
      · rw [rightNew] at same
        exact absurd same leftOld.2
      · exact proper.functional left leftOld.1 right rightOld.1 same
  · intro event member
    rcases mem_replaceEntry.mp member with isNew | isOld
    · rw [isNew]
      exact nonzero
    · exact proper.keyed event isOld.1

theorem Proper.replaceEntry_eq (proper : Proper state)
    (same : replaces (keyOf new) state = some new) :
    Rooms.replaceEntry state new = state := by
  have member := (replaces_eq_some same).1
  ext event
  rw [mem_replaceEntry]
  constructor
  · intro either
    rcases either with isNew | isOld
    · rw [isNew]
      exact member
    · exact isOld.1
  · intro inside
    rcases Decidable.em (keyOf event = keyOf new) with sameKey | otherKey
    · exact .inl (proper.functional event inside new member sameKey)
    · exact .inr ⟨inside, otherKey⟩

section

variable (proper : Proper state)
  (different : some new ≠ replaces (keyOf new) state)
include proper different

theorem Proper.notMem : new ∉ state := by
  intro member
  cases found : replaces (keyOf new) state with
  | none => exact replaces_eq_none found new member rfl
  | some event =>
      obtain ⟨inside, sameKey⟩ := replaces_eq_some found
      have same := proper.functional event inside new member sameKey
      rw [found, same] at different
      exact different rfl

theorem Proper.replaceDiff_exact : (replaceDiff state new).Exact state := by
  constructor
  · intro event member
    have isNew : event = new := by simpa [replaceDiff] using member
    rw [isNew]
    exact proper.notMem different
  · intro event member
    cases found : replaces (keyOf new) state with
    | none => simp [replaceDiff, found] at member
    | some replaced =>
        have isReplaced : event = replaced := by
          simpa [replaceDiff, found] using member
        rw [isReplaced]
        exact (replaces_eq_some found).1

theorem Proper.replaceDiff_apply :
    (replaceDiff state new).apply state = Rooms.replaceEntry state new := by
  ext event
  rw [mem_replaceEntry]
  cases found : replaces (keyOf new) state with
  | none =>
      have others := replaces_eq_none found event
      simp only [Diff.apply, replaceDiff, found, Option.elim_none,
        mem_sdiff, mem_union, mem_singleton,
        notMem_empty, not_false_eq_true, and_true]
      tauto
  | some replaced =>
      obtain ⟨inside, sameKey⟩ := replaces_eq_some found
      have notNew : new ≠ replaced := by
        intro same
        rw [found, same] at different
        exact different rfl
      have sameEvent : event ∈ state → keyOf event = keyOf new →
          event = replaced := by
        intro member sameKey'
        exact proper.functional event member replaced inside
          (sameKey'.trans sameKey.symm)
      simp only [Diff.apply, replaceDiff, found, Option.elim_some,
        mem_sdiff, mem_union, mem_singleton]
      constructor
      · intro kept
        obtain ⟨either, notReplaced⟩ := kept
        rcases either with old | isNew
        · exact .inr ⟨old, fun same => notReplaced (sameEvent old same)⟩
        · exact .inl isNew
      · intro either
        rcases either with isNew | old
        · rw [isNew]
          exact ⟨.inr rfl, notNew⟩
        · refine ⟨.inl old.1, fun isReplaced => old.2 ?_⟩
          rw [isReplaced]
          exact sameKey

end

end

/-- The tables behind the short, state compressor and state services. -/
structure Store (Digest : Type) where
  short : Short Digest
  compressor : StateCompressor
  roomidShortstatehash : RoomId → Option ShortStateHash
  shorteventidShortstatehash : ShortEventId → Option ShortStateHash

namespace Store

variable {Digest : Type} [DecidableEq Digest]

def empty (cacheCapacity : Nat) : Store Digest where
  short := Short.empty
  compressor := StateCompressor.empty cacheCapacity
  roomidShortstatehash := fun _ => none
  shorteventidShortstatehash := fun _ => none

def loadInfo (store : Store Digest) (shortstatehash : ShortStateHash) :
    Except Failure (List ShortStateInfo) × Store Digest :=
  let (result, compressor) :=
    store.compressor.loadShortstatehashInfo shortstatehash
  (result, { store with compressor })

def loadParents (store : Store Digest) :
    Option ShortStateHash → Except Failure (List ShortStateInfo) × Store Digest
  | some previous => store.loadInfo previous
  | none => (.ok [], store)

def saveFromDiff (store : Store Digest) (shortstatehash : ShortStateHash)
    (diff : Diff CompressedStateEvent) (diffToSibling : Nat)
    (statesParents : List ShortStateInfo) :
    Except Failure Unit × Store Digest :=
  match store.compressor.saveStateFromDiff shortstatehash diff diffToSibling
      statesParents with
  | .ok compressor => (.ok (), { store with compressor })
  | .error failure => (.error failure, store)

def answering {α : Type} (answer : α)
    (saved : Except Failure Unit × Store Digest) :
    Except Failure α × Store Digest :=
  (saved.1.map (fun _ => answer), saved.2)

def setShortstatehash (store : Store Digest) (shorteventid : ShortEventId)
    (shortstatehash : ShortStateHash) : Store Digest :=
  { store with
    shorteventidShortstatehash :=
      Function.update store.shorteventidShortstatehash shorteventid
        (some shortstatehash) }

def setRoomState (store : Store Digest) (roomId : RoomId)
    (shortstatehash : ShortStateHash) : Store Digest :=
  { store with
    roomidShortstatehash := Function.update store.roomidShortstatehash roomId
        (some shortstatehash) }

def clearCache (store : Store Digest) : Store Digest :=
  { store with compressor := { store.compressor with
      stateinfoCache := store.compressor.stateinfoCache.clear } }

variable (calculateHash : List CompressedStateEvent → Digest)

def saveState (store : Store Digest) (roomId : RoomId)
    (newState : CompressedState) :
    Except Failure HashSetCompressStateEvent × Store Digest :=
  let previous := store.roomidShortstatehash roomId
  let stateHash := calculateHash newState.sort
  let ((shortstatehash, alreadyExisted), short) :=
    store.short.getOrCreateShortstatehash stateHash
  let store := { store with short }
  if some shortstatehash = previous then
    (.ok { shortstatehash, added := ∅, removed := ∅ }, store)
  else
    let (loaded, store) := store.loadParents previous
    let statesParents := loaded.toOption.getD []
    let diff := diffTo statesParents newState
    let answer : HashSetCompressStateEvent := { diff with shortstatehash }
    if alreadyExisted then (.ok answer, store)
    else
      answering answer (store.saveFromDiff shortstatehash diff 2 statesParents)

def setEventState (store : Store Digest) (eventId : EventId)
    (roomId : RoomId) (state : CompressedState) :
    Except Failure ShortStateHash × Store Digest :=
  let (shorteventid, short) := store.short.getOrCreateShorteventid eventId
  let previous := store.roomidShortstatehash roomId
  let stateHash := calculateHash state.sort
  let ((shortstatehash, alreadyExisted), short) :=
    short.getOrCreateShortstatehash stateHash
  let store := { store with short }
  if alreadyExisted then
    (.ok shortstatehash, store.setShortstatehash shorteventid shortstatehash)
  else
    match store.loadParents previous with
    | (.error failure, store) => (.error failure, store)
    | (.ok statesParents, store) =>
        match store.saveFromDiff shortstatehash (diffTo statesParents state)
            1000000 statesParents with
        | (.error failure, store) => (.error failure, store)
        | (.ok (), store) =>
            (.ok shortstatehash,
              store.setShortstatehash shorteventid shortstatehash)

def appendStateEvent (store : Store Digest) (previous : Option ShortStateHash)
    (shorteventid : ShortEventId) (key : TypeStateKey) :
    Except Failure ShortStateHash × Store Digest :=
  match store.loadParents previous with
  | (.error failure, store) => (.error failure, store)
  | (.ok statesParents, store) =>
      let (shortstatekey, short) := store.short.getOrCreateShortstatekey key
      let new := compressStateEvent shortstatekey shorteventid
      let replaced := replaces shortstatekey (baseOf statesParents)
      if some new = replaced then
        match previous with
        | some previous => (.ok previous, { store with short })
        | none => (.error (.panic "must exist"), { store with short })
      else
        let (shortstatehash, short) := short.nextCount
        let diff : Diff CompressedStateEvent :=
          { added := {new}, removed := replaced.elim ∅ (fun event => {event}) }
        answering shortstatehash
          (Store.saveFromDiff { store with short } shortstatehash diff 2
            statesParents)

def recordPrevious (store : Store Digest) (shorteventid : ShortEventId) :
    Option ShortStateHash → Store Digest
  | some previous => store.setShortstatehash shorteventid previous
  | none => store

def appendToState (store : Store Digest) (newPdu : Pdu) (roomId : RoomId) :
    Except Failure ShortStateHash × Store Digest :=
  let (shorteventid, short) :=
    store.short.getOrCreateShorteventid newPdu.eventId
  let previous := store.roomidShortstatehash roomId
  let store := recordPrevious { store with short } shorteventid previous
  match newPdu.stateKey with
  | some stateKey =>
      store.appendStateEvent previous shorteventid (newPdu.kind, stateKey)
  | none =>
      match previous with
      | some previous => (.ok previous, store)
      | none =>
          (.error (.panic "first event in room must be a state event"), store)

def table (store : Store Digest) : DiffTable :=
  store.compressor.shortstatehashStatediff

omit [DecidableEq Digest] in
/-- No diff is stored under a hash that the counter has not reached. -/
structure Sound (store : Store Digest) : Prop where
  cache : CacheValid store.compressor
  bounded : ∀ hash, store.table hash ≠ none → hash ≤ store.short.counter
  frames : ∀ hash, store.table hash ≠ none →
    ∃ stack, StackOf store.table hash stack
  positive : ∀ key short,
    store.short.statekeyShortstatekey key = some short → 0 < short

structure Advances (before after : Store Digest) : Prop where
  sound : after.Sound
  table : ∀ hash value, before.table hash = some value →
    after.table hash = some value
  rooms : after.roomidShortstatehash = before.roomidShortstatehash

def Holds (store : Store Digest) (hash : ShortStateHash)
    (state : CompressedState) : Prop :=
  ∃ stack, Stands store.table hash stack state

def ParentsOf (store : Store Digest) (previous : Option ShortStateHash)
    (stack : List ShortStateInfo) : Prop :=
  match previous with
  | some hash => StackOf store.table hash stack ∧ Layered stack
  | none => stack = []

section

omit [DecidableEq Digest]

theorem sound_empty (cacheCapacity : Nat) :
    (empty cacheCapacity : Store Digest).Sound := by
  refine ⟨?_, ?_, ?_, ?_⟩
  · intro entry member
    cases member
  · intro hash stored
    exact absurd rfl stored
  · intro hash stored
    exact absurd rfl stored
  · intro key short found
    cases found

theorem Holds.mono {before after : Store Digest} {hash : ShortStateHash}
    {state : CompressedState} (advances : Advances before after)
    (holds : before.Holds hash state) : after.Holds hash state := by
  obtain ⟨stack, stands⟩ := holds
  exact ⟨stack, stands.mono advances.table⟩

theorem Holds.unique {store : Store Digest} {hash : ShortStateHash}
    {left right : CompressedState} (holds : store.Holds hash left)
    (holds' : store.Holds hash right) : left = right := by
  obtain ⟨stack, stands⟩ := holds
  obtain ⟨stack', stands'⟩ := holds'
  rw [← stands.ends, ← stands'.ends, stands.stackOf.unique stands'.stackOf]

theorem Advances.trans {first second third : Store Digest}
    (left : Advances first second) (right : Advances second third) :
    Advances first third :=
  ⟨right.sound,
    fun hash value found => right.table hash value (left.table hash value found),
    right.rooms.trans left.rooms⟩

end

section

variable {store : Store Digest}
omit [DecidableEq Digest]

theorem Sound.withShort {short : Short Digest} (sound : store.Sound)
    (grows : store.short.counter ≤ short.counter)
    (positive : ∀ key id, short.statekeyShortstatekey key = some id → 0 < id) :
    Advances store { store with short } :=
  ⟨⟨sound.cache,
      fun hash stored => le_trans (sound.bounded hash stored) grows,
      sound.frames, positive⟩,
    fun _ _ found => found, rfl⟩

theorem Sound.extend {short : Short Digest} (sound : store.Sound)
    (extends' : store.short.Extends short) :
    Advances store { store with short } :=
  sound.withShort extends'.counter (extends'.positive sound.positive)

theorem loadParents_spec {previous : Option ShortStateHash}
    {stack : List ShortStateInfo} (sound : store.Sound)
    (parents : store.ParentsOf previous stack) :
    ∃ cache, store.loadParents previous =
        (.ok stack, { store with compressor :=
          { store.compressor with stateinfoCache := cache } }) ∧
      Advances store { store with compressor :=
        { store.compressor with stateinfoCache := cache } } := by
  cases previous with
  | none =>
      have empty : stack = [] := parents
      subst empty
      exact ⟨store.compressor.stateinfoCache, rfl, sound,
        fun _ _ found => found, rfl⟩
  | some hash =>
      obtain ⟨stackOf, _⟩ := parents
      obtain ⟨cache, loaded, valid⟩ :=
        loadShortstatehashInfo_spec store.compressor sound.cache stackOf
      refine ⟨cache, ?_, ⟨valid, sound.bounded, sound.frames, sound.positive⟩,
        fun _ _ found => found, rfl⟩
      simp only [loadParents, loadInfo, loaded]

variable {hash : ShortStateHash}

theorem loadInfo_missing (sound : store.Sound)
    (missing : store.table hash = none) :
    loadShortstatehashInfo store.compressor hash =
      (.error (.missingStateDiff hash), store.compressor) := by
  have missed : (store.compressor.stateinfoCache.getMut hash).1 = none := by
    cases hit : (store.compressor.stateinfoCache.getMut hash).1 with
    | none => rfl
    | some stack =>
        have stackOf := (sound.cache.getMut hash).1 stack hit
        exact absurd missing stackOf.stored_ne_none
  unfold loadShortstatehashInfo loadWithin
  cases lookup : store.compressor.stateinfoCache.getMut hash with
  | mk found cache =>
      rw [lookup] at missed
      cases missed
      have stored : store.compressor.shortstatehashStatediff hash = none :=
        missing
      simp only [newShortstatehashInfo, getStatediff, stored]

theorem load_of_holds {state : CompressedState} (sound : store.Sound)
    (holds : store.Holds hash state) :
    ∃ top below, (store.loadInfo hash).1 = .ok (top :: below) ∧
      top.fullState = state := by
  obtain ⟨stack, stands⟩ := holds
  obtain ⟨cache, loaded, _⟩ := loadShortstatehashInfo_spec store.compressor
    sound.cache stands.stackOf
  obtain ⟨top, below, shape, _⟩ := stands.stackOf.head
  subst shape
  refine ⟨top, below, ?_, stands.ends⟩
  simp only [loadInfo, loaded]

theorem ParentsOf.based {previous : Option ShortStateHash}
    {stack : List ShortStateInfo} (parents : store.ParentsOf previous stack)
    (fresh : ∀ older, store.table older ≠ none → older < hash) :
    Based store.table hash stack := by
  cases previous with
  | none =>
      have empty : stack = [] := parents
      subst empty
      exact .none
  | some parent =>
      exact .on (fresh parent parents.1.stored_ne_none) parents.1 parents.2

end

theorem diffTo_eq (stack : List ShortStateInfo) (state : CompressedState) :
    diffTo stack state = Diff.between (baseOf stack) state := by
  cases stack with
  | nil => simp [diffTo, Diff.between, baseOf]
  | cons top below => rfl

variable {store : Store Digest}

omit [DecidableEq Digest] in
theorem Sound.unused (sound : store.Sound) :
    store.table (store.short.counter + 1) = none := by
  by_contra stored
  exact absurd (sound.bounded _ stored) (not_succ_le_self _)

variable {stack : List ShortStateInfo}

omit [DecidableEq Digest] in
theorem saveFromDiff_spec (hash : ShortStateHash)
    (diff : Diff CompressedStateEvent) (diffToSibling : Nat)
    (state : CompressedState) (sound : store.Sound)
    (unused : store.table hash = none) (positive : 0 < hash)
    (issued : hash ≤ store.short.counter) (based : Based store.table hash stack)
    (exact : diff.Exact (baseOf stack))
    (reaches : diff.apply (baseOf stack) = state) (keyed : Keyed state)
    (fits : Fits diff diffToSibling stack) :
    ∃ compressor, store.saveFromDiff hash diff diffToSibling stack =
        (.ok (), { store with compressor }) ∧
      Advances store { store with compressor } ∧
      (∀ other, compressor.shortstatehashStatediff other ≠ none →
        other = hash ∨ store.table other ≠ none) ∧
      Holds { store with compressor } hash state := by
  obtain ⟨compressor, saved, savedDiff⟩ := saveStateFromDiff_spec
    store.compressor hash stack diff diffToSibling based.layered exact fits
  subst reaches
  have stands := savedDiff.stands unused positive based keyed
  obtain ⟨newStack, newStands⟩ := stands
  refine ⟨compressor, ?_, ?_, ?_, newStack, newStands⟩
  · simp only [saveFromDiff, saved]
  · cases savedDiff with
    | on above below stored split few storedExact reaches =>
        have extends' := saveStatediff_extends { stored with
          parent := below.head?.map ShortStateInfo.shortstatehash } unused
        refine ⟨⟨?_, ?_, ?_, sound.positive⟩, extends', rfl⟩
        · intro entry member
          exact (sound.cache entry member).mono extends'
        · intro other storedOther
          rcases saveStatediff_ne_none storedOther with same | old
          · rw [same]
            exact issued
          · exact sound.bounded other old
        · intro other storedOther
          rcases saveStatediff_ne_none storedOther with same | old
          · rw [same]
            exact ⟨newStack, newStands.stackOf⟩
          · obtain ⟨oldStack, stackOf⟩ := sound.frames other old
            exact ⟨oldStack, stackOf.mono extends'⟩
  · cases savedDiff with
    | on above below stored split few storedExact reaches =>
        exact fun other storedOther => saveStatediff_ne_none storedOther

def withRow (store : Store Digest) (stateHash : Digest) : Store Digest :=
  { store with short := { store.short with
      counter := store.short.counter + 1
      statehashShortstatehash :=
        Function.update store.short.statehashShortstatehash stateHash
          (some (store.short.counter + 1)) } }

theorem getOrCreateShortstatehash_new {stateHash : Digest}
    (missing : store.short.statehashShortstatehash stateHash = none)
    (fits : store.short.counter < u64Max) :
    store.short.getOrCreateShortstatehash stateHash =
      ((store.short.counter + 1, false), (store.withRow stateHash).short) := by
  simp only [Short.getOrCreateShortstatehash, missing,
    Short.nextCount_of_lt fits, withRow]

theorem Sound.withRow (sound : store.Sound) (stateHash : Digest) :
    Advances store (store.withRow stateHash) :=
  sound.withShort (le_succ _) sound.positive

omit [DecidableEq Digest] in
theorem Sound.fresh (sound : store.Sound) :
    ∀ older, store.table older ≠ none → older < store.short.counter + 1 := by
  intro older stored
  exact lt_succ_of_le (sound.bounded older stored)

omit [DecidableEq Digest] in
theorem Sound.drawn_ne (sound : store.Sound) {previous : Option ShortStateHash}
    (parents : store.ParentsOf previous stack) :
    some (store.short.counter + 1) ≠ previous := by
  rintro rfl
  exact lt_irrefl _ (sound.fresh _ parents.1.stored_ne_none)

theorem saveNew_spec (stateHash : Digest) {previous : Option ShortStateHash}
    {state : CompressedState} {diffToSibling : Nat} (sound : store.Sound)
    (parents : store.ParentsOf previous stack) (keyed : Keyed state)
    (fits : Fits (diffTo stack state) diffToSibling stack) :
    ∃ loaded compressor, (store.withRow stateHash).loadParents previous =
          (.ok stack, loaded) ∧
        loaded.saveFromDiff (store.short.counter + 1) (diffTo stack state)
            diffToSibling stack =
          (.ok (), { store.withRow stateHash with compressor }) ∧
        Advances store { store.withRow stateHash with compressor } ∧
        Holds { store.withRow stateHash with compressor }
          (store.short.counter + 1) state := by
  have drawn := sound.withRow stateHash
  have kept : (store.withRow stateHash).ParentsOf previous stack := parents
  obtain ⟨cache, loaded, loads⟩ := loadParents_spec drawn.sound kept
  obtain ⟨compressor, saved, saves, _, holds⟩ :=
    saveFromDiff_spec (store.short.counter + 1) (diffTo stack state)
      diffToSibling state loads.sound sound.unused (succ_pos _)
      (le_refl _)
      (parents.based sound.fresh)
      (by
        rw [diffTo_eq]
        exact Diff.between_exact _ _)
      (by
        rw [diffTo_eq]
        exact Diff.apply_between _ _)
      keyed fits
  exact ⟨_, compressor, loaded, saved, (drawn.trans loads).trans saves, holds⟩

section

variable {store : Store Digest} {roomId : RoomId} {state : CompressedState}
  {stack : List ShortStateInfo}

section

variable (sound : store.Sound)
  (missing : store.short.statehashShortstatehash
    (calculateHash state.sort) = none)
  (counter : store.short.counter < u64Max)
  (parents : store.ParentsOf (store.roomidShortstatehash roomId) stack)
include sound missing counter parents

theorem saveState_new
    (keyed : Keyed state) (fits : Fits (diffTo stack state) 2 stack) :
    ∃ answer compressor, store.saveState calculateHash roomId state =
          (.ok answer,
            { store.withRow (calculateHash state.sort) with compressor }) ∧
        answer.shortstatehash = store.short.counter + 1 ∧
        Advances store
          { store.withRow (calculateHash state.sort) with compressor } ∧
        Holds { store.withRow (calculateHash state.sort) with compressor }
          (store.short.counter + 1) state := by
  obtain ⟨loaded, compressor, loads, saves, advances, holds⟩ :=
    saveNew_spec (calculateHash state.sort) sound parents keyed fits
  have different := sound.drawn_ne parents
  refine ⟨{ diffTo stack state with
    shortstatehash := store.short.counter + 1 }, compressor, ?_, rfl,
    advances, holds⟩
  have drawn : { store with
      short := (store.withRow (calculateHash state.sort)).short } =
        store.withRow (calculateHash state.sort) := rfl
  simp only [saveState, getOrCreateShortstatehash_new missing counter,
    if_neg different, drawn, loads, Except.toOption, Option.getD_some,
    Bool.false_eq_true, if_false, saves, answering, Except.map]

theorem saveState_failed {failure : Failure}
    (fails : ∀ compressor, saveStateFromDiff compressor
      (store.short.counter + 1) (diffTo stack state) 2 stack = .error failure) :
    ∃ after,
      store.saveState calculateHash roomId state = (.error failure, after) ∧
        Advances store after ∧
        after.short = (store.withRow (calculateHash state.sort)).short ∧
        after.table = store.table := by
  have drawn := sound.withRow (calculateHash state.sort)
  have kept : (store.withRow (calculateHash state.sort)).ParentsOf
      (store.roomidShortstatehash roomId) stack := parents
  obtain ⟨cache, loaded, loads⟩ := loadParents_spec drawn.sound kept
  have different := sound.drawn_ne parents
  refine ⟨_, ?_, drawn.trans loads, rfl, rfl⟩
  have drawnStore : { store with
      short := (store.withRow (calculateHash state.sort)).short } =
        store.withRow (calculateHash state.sort) := rfl
  simp only [saveState, getOrCreateShortstatehash_new missing counter,
    if_neg different, drawnStore, loaded, Except.toOption,
    Option.getD_some, Bool.false_eq_true, if_false, saveFromDiff,
    fails]
  rfl

end

theorem saveState_known {hash : ShortStateHash} (sound : store.Sound)
    (found : store.short.statehashShortstatehash
      (calculateHash state.sort) = some hash)
    (parents : store.ParentsOf (store.roomidShortstatehash roomId) stack) :
    ∃ answer compressor, store.saveState calculateHash roomId state =
          (.ok answer, { store with compressor }) ∧
        answer.shortstatehash = hash ∧
        Advances store { store with compressor } ∧
        compressor.shortstatehashStatediff = store.table := by
  have row : store.short.getOrCreateShortstatehash
      (calculateHash state.sort) = ((hash, true), store.short) := by
    simp only [Short.getOrCreateShortstatehash, found]
  obtain ⟨cache, loaded, loads⟩ := loadParents_spec sound parents
  simp only [saveState, row]
  split
  · exact ⟨_, store.compressor, rfl, rfl,
      ⟨sound, fun _ _ same => same, rfl⟩, rfl⟩
  · refine ⟨{ diffTo stack state with shortstatehash := hash },
      { store.compressor with stateinfoCache := cache }, ?_, rfl, loads, rfl⟩
    simp only [loaded, if_true]
    rfl

end

def withEvent (store : Store Digest) (eventId : EventId) : Store Digest :=
  { store with short := (store.short.getOrCreateShorteventid eventId).2 }

variable {store : Store Digest}

theorem setEventState_new (eventId : EventId) (roomId : RoomId)
    {state : CompressedState} {stack : List ShortStateInfo}
    (sound : store.Sound) (missing : store.short.statehashShortstatehash
      (calculateHash state.sort) = none)
    (counter : (store.withEvent eventId).short.counter < u64Max)
    (parents : store.ParentsOf (store.roomidShortstatehash roomId) stack)
    (keyed : Keyed state) (fits : Fits (diffTo stack state) 1000000 stack) :
    ∃ hash compressor, let after : Store Digest :=
        { (store.withEvent eventId).withRow (calculateHash state.sort) with
          compressor }
      hash = (store.withEvent eventId).short.counter + 1 ∧
        store.setEventState calculateHash eventId roomId state =
          (.ok hash, after.setShortstatehash
            (store.short.getOrCreateShorteventid eventId).1 hash) ∧
        Advances store after ∧ after.Holds hash state := by
  have issued := store.short.getOrCreateShorteventid_extends eventId
  have drawn : Advances store (store.withEvent eventId) := sound.extend issued
  have kept : (store.withEvent eventId).ParentsOf
      (store.roomidShortstatehash roomId) stack := parents
  have missing' : (store.withEvent eventId).short.statehashShortstatehash
      (calculateHash state.sort) = none := by
    rw [← missing]
    exact congrFun issued.rows _
  obtain ⟨loaded, compressor, loads, saves, advances, holds⟩ :=
    saveNew_spec (calculateHash state.sort) drawn.sound kept keyed fits
  refine ⟨_, compressor, rfl, ?_, drawn.trans advances, holds⟩
  have row := getOrCreateShortstatehash_new missing' counter
  simp only [withEvent] at row
  have drawnRow : { store with
      short := ((store.withEvent eventId).withRow
        (calculateHash state.sort)).short } =
          (store.withEvent eventId).withRow (calculateHash state.sort) := rfl
  simp only [withEvent] at drawnRow loads saves
  simp only [setEventState, row, Bool.false_eq_true, if_false, drawnRow,
    loads, saves, withEvent]

theorem setEventState_known (eventId : EventId) (roomId : RoomId)
    {state : CompressedState} {hash : ShortStateHash} (sound : store.Sound)
    (found : store.short.statehashShortstatehash
      (calculateHash state.sort) = some hash) :
    store.setEventState calculateHash eventId roomId state =
        (.ok hash, (store.withEvent eventId).setShortstatehash
          (store.short.getOrCreateShorteventid eventId).1 hash) ∧
      Advances store (store.withEvent eventId) := by
  have issued := store.short.getOrCreateShorteventid_extends eventId
  refine ⟨?_, sound.extend issued⟩
  have row : (store.short.getOrCreateShorteventid
      eventId).2.getOrCreateShortstatehash (calculateHash state.sort) =
        ((hash, true), (store.short.getOrCreateShorteventid eventId).2) := by
    simp only [Short.getOrCreateShortstatehash, issued.rows, found]
  simp only [setEventState, row, if_true, withEvent]

omit [DecidableEq Digest] in
theorem setShortstatehash_eq_some {shorteventid other : ShortEventId}
    {hash found : ShortStateHash} (row : (store.setShortstatehash shorteventid
      hash).shorteventidShortstatehash other = some found) :
    store.shorteventidShortstatehash other = some found ∨ found = hash := by
  rcases update_eq_some row with old | new
  · exact .inl old
  · exact .inr new.2

omit [DecidableEq Digest] in
theorem Advances.setShortstatehash {before after : Store Digest}
    (advances : Advances before after) (shorteventid : ShortEventId)
    (hash : ShortStateHash) :
    Advances before (after.setShortstatehash shorteventid hash) :=
  ⟨⟨advances.sound.cache, advances.sound.bounded, advances.sound.frames,
      advances.sound.positive⟩, advances.table, advances.rooms⟩

def newEvent (store : Store Digest) (shorteventid : ShortEventId)
    (key : TypeStateKey) : CompressedStateEvent :=
  compressStateEvent (store.short.getOrCreateShortstatekey key).1 shorteventid

def withKey (store : Store Digest) (key : TypeStateKey) : Store Digest :=
  { store with short := (store.short.getOrCreateShortstatekey key).2 }

section

variable {store : Store Digest}
omit [DecidableEq Digest]

theorem Sound.withKey (sound : store.Sound) (key : TypeStateKey) :
    Advances store (store.withKey key) :=
  sound.extend (store.short.getOrCreateShortstatekey_extends key)

theorem Sound.nextCount (sound : store.Sound) :
    Advances store { store with short := { store.short with
      counter := store.short.counter + 1 } } :=
  sound.withShort (le_succ _) sound.positive

theorem appendStateEvent_same {previous : ShortStateHash}
    {shorteventid : ShortEventId} {key : TypeStateKey}
    {stack : List ShortStateInfo} (sound : store.Sound)
    (parents : store.ParentsOf (some previous) stack)
    (same : some (store.newEvent shorteventid key) =
      replaces (keyOf (store.newEvent shorteventid key)) (baseOf stack)) :
    ∃ compressor, store.appendStateEvent (some previous) shorteventid key =
          (.ok previous, { store.withKey key with compressor }) ∧
        Advances store { store.withKey key with compressor } := by
  obtain ⟨cache, loaded, loads⟩ := loadParents_spec sound parents
  refine ⟨{ store.compressor with stateinfoCache := cache }, ?_,
    loads.trans (loads.sound.withKey key)⟩
  simp only [appendStateEvent, loaded]
  exact if_pos same

theorem appendStateEvent_new {previous : Option ShortStateHash}
    {shorteventid : ShortEventId} {key : TypeStateKey}
    {stack : List ShortStateInfo} (sound : store.Sound)
    (parents : store.ParentsOf previous stack) (proper : Proper (baseOf stack))
    (different : some (store.newEvent shorteventid key) ≠
      replaces (keyOf (store.newEvent shorteventid key)) (baseOf stack))
    (counter : (store.withKey key).short.counter < u64Max)
    (fits : Fits (replaceDiff (baseOf stack)
      (store.newEvent shorteventid key)) 2 stack) :
    ∃ hash after,
      store.appendStateEvent previous shorteventid key = (.ok hash, after) ∧
        Advances store after ∧
        after.Holds hash (replaceEntry (baseOf stack)
          (store.newEvent shorteventid key)) ∧
        after.shorteventidShortstatehash = store.shorteventidShortstatehash ∧
        after.short.statehashShortstatehash =
          store.short.statehashShortstatehash := by
  obtain ⟨cache, loaded, loads⟩ := loadParents_spec sound parents
  have keyed := loads.sound.withKey key
  have drawn := keyed.sound.nextCount
  have nonzero : keyOf (store.newEvent shorteventid key) ≠ 0 :=
    ne_of_gt (Short.getOrCreateShortstatekey_positive sound.positive key)
  have fresh := keyed.sound.fresh
  have based : Based store.table ((store.withKey key).short.counter + 1)
      stack := parents.based fresh
  obtain ⟨compressor, saved, saves, _, holds⟩ :=
    saveFromDiff_spec ((store.withKey key).short.counter + 1)
      (replaceDiff (baseOf stack) (store.newEvent shorteventid key)) 2
      (replaceEntry (baseOf stack) (store.newEvent shorteventid key))
      drawn.sound keyed.sound.unused (succ_pos _) (le_refl _) based
      (proper.replaceDiff_exact different) (proper.replaceDiff_apply different)
      (proper.replaceEntry nonzero).keyed fits
  refine ⟨_, _, ?_, ((loads.trans keyed).trans drawn).trans saves, holds,
    rfl, (store.short.getOrCreateShortstatekey_extends key).rows⟩
  have counted : (store.short.getOrCreateShortstatekey key).2.nextCount = _ :=
    Short.nextCount_of_lt counter
  simp only [appendStateEvent, loaded, counted]
  refine (if_neg different).trans ?_
  exact congrArg (answering _) saved

theorem Sound.withEvent (sound : store.Sound) (eventId : EventId) :
    Advances store (store.withEvent eventId) :=
  sound.extend (store.short.getOrCreateShorteventid_extends eventId)

end

section

omit [DecidableEq Digest]

theorem Advances.recordPrevious {before after : Store Digest}
    (advances : Advances before after) (shorteventid : ShortEventId)
    (previous : Option ShortStateHash) :
    Advances before (after.recordPrevious shorteventid previous) := by
  cases previous with
  | none => exact advances
  | some previous => exact advances.setShortstatehash shorteventid previous

@[simp] theorem recordPrevious_short (store : Store Digest)
    (shorteventid : ShortEventId) (previous : Option ShortStateHash) :
    (store.recordPrevious shorteventid previous).short = store.short := by
  cases previous <;> rfl

@[simp] theorem recordPrevious_compressor (store : Store Digest)
    (shorteventid : ShortEventId) (previous : Option ShortStateHash) :
    (store.recordPrevious shorteventid previous).compressor =
      store.compressor := by
  cases previous <;> rfl

theorem recordPrevious_eq_some {store : Store Digest}
    {shorteventid other : ShortEventId} {previous : Option ShortStateHash}
    {hash : ShortStateHash} (row : (store.recordPrevious shorteventid
      previous).shorteventidShortstatehash other = some hash) :
    store.shorteventidShortstatehash other = some hash ∨
      previous = some hash := by
  cases previous with
  | none => exact .inl row
  | some previous =>
      rcases setShortstatehash_eq_some row with old | new
      · exact .inl old
      · exact .inr (congrArg some new.symm)

end

end Store

end ArcanaServer.Rooms
