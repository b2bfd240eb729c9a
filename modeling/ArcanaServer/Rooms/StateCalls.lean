import ArcanaServer.Rooms.StateHistory

namespace ArcanaServer.Rooms

open Library ArcanaServer.Matrix StateCompressor Nat

/-! Calls that save a state beside each other.  Between any two accesses to the
tables other calls may come in, and a call may end at any of them. -/

inductive SavePurpose where
  | saveState
  | setEventState (shorteventid : ShortEventId)

inductive SaveStage where
  | begun
  | previousRead (previous : Option ShortStateHash)
  | missing (previous : Option ShortStateHash)
  | drawn (previous : Option ShortStateHash) (shortstatehash : ShortStateHash)
  | numbered (previous : Option ShortStateHash)
      (shortstatehash : ShortStateHash) (alreadyExisted : Bool)
  | loaded (shortstatehash : ShortStateHash) (alreadyExisted : Bool)
      (statesParents : List ShortStateInfo)
  | saved (shortstatehash : ShortStateHash)

structure SaveCall where
  purpose : SavePurpose
  roomId : RoomId
  state : RoomState
  stage : SaveStage

inductive SaveProgress where
  | continues (stage : SaveStage)
  | returns (result : Except Failure ShortStateHash)

def SavePurpose.diffToSibling : SavePurpose → Nat
  | .saveState => 2
  | .setEventState _ => 1000000

section

variable {Digest : Type} [DecidableEq Digest]
  (calculateHash : List CompressedStateEvent → Digest)

namespace Store

def putStatehash (store : Store Digest) (stateHash : Digest)
    (shortstatehash : ShortStateHash) : Store Digest :=
  { store with short := { store.short with
      statehashShortstatehash :=
        Function.update store.short.statehashShortstatehash stateHash
          (some shortstatehash) } }

def loadFor (store : Store Digest) (purpose : SavePurpose)
    (previous : Option ShortStateHash) (shortstatehash : ShortStateHash)
    (alreadyExisted : Bool) : Store Digest × SaveProgress :=
  match purpose with
  | .saveState =>
      if some shortstatehash = previous then
        (store, .returns (.ok shortstatehash))
      else
        let (loaded, store) := store.loadParents previous
        (store, .continues
          (.loaded shortstatehash alreadyExisted (loaded.toOption.getD [])))
  | .setEventState _ =>
      if alreadyExisted then (store, .continues (.saved shortstatehash))
      else
        match store.loadParents previous with
        | (.error failure, store) => (store, .returns (.error failure))
        | (.ok statesParents, store) =>
            (store, .continues (.loaded shortstatehash false statesParents))

def advance (store : Store Digest) (call : SaveCall) :
    Store Digest × SaveProgress :=
  let stateHash := calculateHash call.state.entries.sort
  match call.stage with
  | .begun =>
      (store, .continues
        (.previousRead (store.roomidShortstatehash call.roomId)))
  | .previousRead previous =>
      match store.short.statehashShortstatehash stateHash with
      | some shortstatehash =>
          (store, .continues (.numbered previous shortstatehash true))
      | none => (store, .continues (.missing previous))
  | .missing previous =>
      let (shortstatehash, short) := store.short.nextCount
      ({ store with short }, .continues (.drawn previous shortstatehash))
  | .drawn previous shortstatehash =>
      (store.putStatehash stateHash shortstatehash,
        .continues (.numbered previous shortstatehash false))
  | .numbered previous shortstatehash alreadyExisted =>
      store.loadFor call.purpose previous shortstatehash alreadyExisted
  | .loaded shortstatehash alreadyExisted statesParents =>
      if alreadyExisted then (store, .continues (.saved shortstatehash))
      else
        match store.saveFromDiff shortstatehash
            (diffTo statesParents call.state.entries)
            call.purpose.diffToSibling statesParents with
        | (.error failure, store) => (store, .returns (.error failure))
        | (.ok (), store) => (store, .continues (.saved shortstatehash))
  | .saved shortstatehash =>
      match call.purpose with
      | .saveState => (store, .returns (.ok shortstatehash))
      | .setEventState shorteventid =>
          (store.setShortstatehash shorteventid shortstatehash,
            .returns (.ok shortstatehash))

end Store

structure SaveWorld (Digest : Type) where
  store : Store Digest
  calls : Nat → Option SaveCall
  /-- What the calls have returned so far. -/
  returned : List ShortStateHash

/-- A call may be dropped anywhere, and a crash drops all of them. -/
inductive SaveAction where
  | start (id : Nat) (purpose : SavePurpose) (roomId : RoomId)
      (state : RoomState)
  | advance (id : Nat)
  | setRoomState (roomId : RoomId) (shortstatehash : ShortStateHash)
  | drop (id : Nat)
  | crash
  | clearCache
  | drawCount

namespace SaveWorld

def empty (cacheCapacity : Nat) : SaveWorld Digest where
  store := .empty cacheCapacity
  calls := fun _ => none
  returned := []

def progress (world : SaveWorld Digest) (id : Nat) (call : SaveCall) :
    Store Digest × SaveProgress →
      SaveWorld Digest × Option (Except Failure ShortStateHash)
  | (store, .continues stage) =>
      ({ world with
        store
        calls := Function.update world.calls id (some { call with stage }) },
        none)
  | (store, .returns result) =>
      ({ store
         calls := Function.update world.calls id none
         returned := result.toOption.toList ++ world.returned },
        some result)

/-- A room is only set to what a call has returned. -/
def step (world : SaveWorld Digest) :
    SaveAction → SaveWorld Digest × Option (Except Failure ShortStateHash)
  | .start id purpose roomId state =>
      match world.calls id with
      | some _ => (world, none)
      | none =>
          let call : SaveCall := { purpose, roomId, state, stage := .begun }
          ({ world with
            calls := Function.update world.calls id (some call) }, none)
  | .advance id =>
      match world.calls id with
      | some call =>
          world.progress id call (world.store.advance calculateHash call)
      | none => (world, none)
  | .setRoomState roomId shortstatehash =>
      if shortstatehash ∈ world.returned then
        ({ world with
          store := world.store.setRoomState roomId shortstatehash }, none)
      else (world, none)
  | .drop id =>
      ({ world with calls := Function.update world.calls id none }, none)
  | .crash =>
      ({ world with
        store := world.store.clearCache
        calls := fun _ => none }, none)
  | .clearCache => ({ world with store := world.store.clearCache }, none)
  | .drawCount =>
      ({ world with store := { world.store with
          short := world.store.short.nextCount.2 } }, none)

end SaveWorld

end

section

variable {Digest : Type}

namespace Store

def HasDiff (store : Store Digest) (hash : ShortStateHash) : Prop :=
  store.table hash ≠ none

structure Kept (store : Store Digest) : Prop where
  sound : store.Sound
  held : ∀ hash, store.HasDiff hash → ∃ state, store.Holds hash state
  rooms : ∀ roomId hash, store.roomidShortstatehash roomId = some hash →
    store.HasDiff hash
  events : ∀ shorteventid hash,
    store.shorteventidShortstatehash shorteventid = some hash →
    store.HasDiff hash

structure Pending (store : Store Digest) (hash : ShortStateHash) : Prop where
  unused : store.table hash = none
  positive : 0 < hash
  issued : hash ≤ store.short.counter

def Known (store : Store Digest) (previous : Option ShortStateHash) : Prop :=
  ∀ hash, previous = some hash → store.HasDiff hash

end Store

open Store

def Older (previous : Option ShortStateHash) (hash : ShortStateHash) : Prop :=
  ∀ older, previous = some older → older < hash

namespace SaveStage

def pending : SaveStage → Option ShortStateHash
  | .drawn _ hash => some hash
  | .numbered _ hash false => some hash
  | .loaded hash false _ => some hash
  | _ => none

def Fair (store : Store Digest) : SaveStage → Prop
  | .begun => True
  | .previousRead previous => Known store previous
  | .missing previous => Known store previous
  | .drawn previous hash =>
      Known store previous ∧ Older previous hash ∧ Pending store hash
  | .numbered previous hash true =>
      Known store previous ∧ store.HasDiff hash
  | .numbered previous hash false =>
      Known store previous ∧ Older previous hash ∧ Pending store hash
  | .loaded hash true _ => store.HasDiff hash
  | .loaded hash false parents =>
      Pending store hash ∧ Based store.table hash parents
  | .saved hash => store.HasDiff hash

end SaveStage

structure Store.Grows (before after : Store Digest) : Prop where
  table : ∀ hash value, before.table hash = some value →
    after.table hash = some value
  counter : before.short.counter ≤ after.short.counter

namespace Store.Grows

variable {before after : Store Digest} {hash : ShortStateHash}
  {previous : Option ShortStateHash}

section

variable (grows : Store.Grows before after)
include grows

theorem hasDiff (stored : before.HasDiff hash) : after.HasDiff hash := by
  obtain ⟨value, found⟩ := Option.ne_none_iff_exists'.mp stored
  have kept := grows.table hash value found
  unfold HasDiff
  rw [kept]
  exact Option.some_ne_none value

theorem known (isKnown : Known before previous) : Known after previous :=
  fun hash same => grows.hasDiff (isKnown hash same)

theorem pending (waits : Pending before hash) (unused : after.table hash = none) :
    Pending after hash :=
  ⟨unused, waits.positive, waits.issued.trans grows.counter⟩

theorem based {parents : List ShortStateInfo}
    (isBased : Based before.table hash parents) :
    Based after.table hash parents := by
  cases isBased with
  | none => exact .none
  | on older stackOf layered =>
      exact .on older (stackOf.mono grows.table) layered

theorem fair {stage : SaveStage} (isFair : stage.Fair before)
    (unused : ∀ hash, stage.pending = some hash → after.table hash = none) :
    stage.Fair after := by
  cases stage with
  | begun => trivial
  | previousRead previous | missing previous => exact grows.known isFair
  | drawn previous hash =>
      obtain ⟨isKnown, older, waits⟩ := isFair
      exact ⟨grows.known isKnown, older, grows.pending waits (unused hash rfl)⟩
  | numbered previous hash existed =>
      cases existed with
      | true => exact ⟨grows.known isFair.1, grows.hasDiff isFair.2⟩
      | false =>
          obtain ⟨isKnown, older, waits⟩ := isFair
          exact ⟨grows.known isKnown, older,
            grows.pending waits (unused hash rfl)⟩
  | loaded hash existed parents =>
      cases existed with
      | true => exact grows.hasDiff isFair
      | false =>
          exact ⟨grows.pending isFair.1 (unused hash rfl), grows.based isFair.2⟩
  | saved hash => exact grows.hasDiff isFair

end

end Store.Grows

namespace Store.Kept

variable {store : Store Digest}

theorem parents (kept : Kept store) {previous : Option ShortStateHash}
    (isKnown : Known store previous) :
    ∃ stack, store.ParentsOf previous stack := by
  cases previous with
  | none => exact ⟨[], rfl⟩
  | some hash =>
      obtain ⟨state, stack, stands⟩ := kept.held hash (isKnown hash rfl)
      exact ⟨stack, stands.stackOf, stands.layered⟩

theorem withShort (kept : Kept store) {short : Short Digest}
    (counter : store.short.counter ≤ short.counter)
    (positive : ∀ key id, short.statekeyShortstatekey key = some id →
      0 < id) : Kept { store with short } :=
  ⟨(kept.sound.withShort counter positive).sound, kept.held, kept.rooms,
    kept.events⟩

theorem withCache (kept : Kept store)
    {cache : LruCache ShortStateHash (List ShortStateInfo)}
    (valid : CacheValid { store.compressor with stateinfoCache := cache }) :
    Kept { store with
      compressor := { store.compressor with stateinfoCache := cache } } :=
  ⟨⟨valid, kept.sound.bounded, kept.sound.frames, kept.sound.positive⟩,
    kept.held, kept.rooms, kept.events⟩

theorem setRoomState (kept : Kept store) (roomId : RoomId)
    {hash : ShortStateHash} (stored : store.HasDiff hash) :
    Kept (store.setRoomState roomId hash) := by
  refine ⟨⟨kept.sound.cache, kept.sound.bounded, kept.sound.frames,
    kept.sound.positive⟩, kept.held, ?_, kept.events⟩
  intro other found row
  rcases update_eq_some row with old | new
  · exact kept.rooms other found old
  · rw [new.2]
    exact stored

theorem clearCache (kept : Kept store) : Kept store.clearCache :=
  kept.withCache (fun entry member => by cases member)

theorem setShortstatehash (kept : Kept store) (shorteventid : ShortEventId)
    {hash : ShortStateHash} (stored : store.HasDiff hash) :
    Kept (store.setShortstatehash shorteventid hash) := by
  refine ⟨⟨kept.sound.cache, kept.sound.bounded, kept.sound.frames,
    kept.sound.positive⟩, kept.held, kept.rooms, ?_⟩
  intro other found row
  rcases Store.setShortstatehash_eq_some row with old | new
  · exact kept.events other found old
  · rw [new]
    exact stored

end Store.Kept

/-- What an access leaves behind.  A diff is only stored under the hash of the
call, and a new hash of the call is above the counter. -/
structure Advanced (before after : Store Digest) (stage : SaveStage)
    (progress : SaveProgress) : Prop where
  kept : after.Kept
  grows : Store.Grows before after
  table : ∀ hash, after.HasDiff hash →
    before.HasDiff hash ∨ stage.pending = some hash
  continues : ∀ next, progress = .continues next → next.Fair after ∧
    ∀ hash, next.pending = some hash →
      stage.pending = some hash ∨ before.short.counter < hash
  returns : ∀ hash, progress = .returns (.ok hash) → after.HasDiff hash

theorem Store.Grows.of_same {before after : Store Digest}
    (same : after.table = before.table)
    (counter : before.short.counter ≤ after.short.counter) :
    Store.Grows before after := by
  refine ⟨fun hash value found => ?_, counter⟩
  rw [same]
  exact found

theorem Store.HasDiff.of_same {before after : Store Digest}
    {hash : ShortStateHash} (same : after.table = before.table)
    (stored : after.HasDiff hash) : before.HasDiff hash := by
  unfold HasDiff at stored ⊢
  rw [← same]
  exact stored

section

variable {before after : Store Digest} {stage next : SaveStage}

theorem Advanced.of_continues (kept : after.Kept)
    (same : after.table = before.table)
    (counter : before.short.counter ≤ after.short.counter)
    (fair : next.Fair after) (pending : ∀ hash, next.pending = some hash →
      stage.pending = some hash ∨ before.short.counter < hash) :
    Advanced before after stage (.continues next) where
  kept := kept
  grows := .of_same same counter
  table := fun hash stored => .inl (stored.of_same same)
  continues := by
    intro other isNext
    cases isNext
    exact ⟨fair, pending⟩
  returns := fun hash isReturn => by cases isReturn

theorem Advanced.of_returns {result : Except Failure ShortStateHash}
    (kept : after.Kept) (same : after.table = before.table)
    (counter : before.short.counter ≤ after.short.counter)
    (stored : ∀ hash, result = .ok hash → after.HasDiff hash) :
    Advanced before after stage (.returns result) where
  kept := kept
  grows := .of_same same counter
  table := fun hash found => .inl (found.of_same same)
  continues := fun next isNext => by cases isNext
  returns := by
    intro hash isReturn
    cases isReturn
    exact stored hash rfl

end

variable {store : Store Digest}

/-- A row that the call finds leads to a stored diff, and the counter has a
count left where the call draws one. -/
def SaveStage.Finds (store : Store Digest) (row : Option ShortStateHash) :
    SaveStage → Prop
  | .previousRead _ => ∀ hash ∈ row, store.table hash ≠ none
  | .missing _ => store.short.counter < u64Max
  | _ => True

def SaveCall.Finds (calculateHash : List CompressedStateEvent → Digest)
    (store : Store Digest) (call : SaveCall) : Prop :=
  call.stage.Finds store (store.short.statehashShortstatehash
      (calculateHash call.state.entries.sort))

variable {previous : Option ShortStateHash}

theorem loadParents_kept (kept : store.Kept) (isKnown : store.Known previous) :
    ∃ parents after, store.loadParents previous = (.ok parents, after) ∧
      after.Kept ∧ after.table = store.table ∧ after.short = store.short ∧
      store.ParentsOf previous parents := by
  obtain ⟨parents, isParents⟩ := kept.parents isKnown
  obtain ⟨cache, loaded, advances⟩ := loadParents_spec kept.sound isParents
  exact ⟨parents, _, loaded, kept.withCache advances.sound.cache, rfl, rfl,
    isParents⟩

variable {hash : ShortStateHash}

theorem based_of_older {parents : List ShortStateInfo}
    (isParents : store.ParentsOf previous parents) (older : Older previous hash) :
    Based store.table hash parents := by
  cases previous with
  | none =>
      have empty : parents = [] := isParents
      rw [empty]
      exact .none
  | some parent =>
      exact .on (older parent rfl) isParents.1 isParents.2

theorem loadFor_advanced (kept : store.Kept) {purpose : SavePurpose}
    {existed : Bool}
    (fair : (SaveStage.numbered previous hash existed).Fair store) :
    Advanced store (store.loadFor purpose previous hash existed).1
      (.numbered previous hash existed)
      (store.loadFor purpose previous hash existed).2 := by
  have isKnown : store.Known previous := by
    cases existed with
    | true | false => exact fair.1
  obtain ⟨parents, after, loaded, keptAfter, same, short, isParents⟩ :=
    loadParents_kept kept isKnown
  have counter : store.short.counter ≤ after.short.counter :=
    le_of_eq (by rw [short])
  have next : (SaveStage.loaded hash existed parents).Fair after := by
    cases existed with
    | true =>
        change after.table hash ≠ none
        rw [same]
        exact fair.2
    | false =>
        obtain ⟨_, older, waits⟩ := fair
        refine ⟨⟨by rw [same]; exact waits.unused, waits.positive,
          waits.issued.trans counter⟩, ?_⟩
        rw [same]
        exact based_of_older isParents older
  have pending : ∀ found,
      (SaveStage.loaded hash existed parents).pending = some found →
      (SaveStage.numbered previous hash existed).pending = some found ∨
        store.short.counter < found := by
    intro found isFound
    refine .inl ?_
    cases existed with
    | true | false => exact isFound
  unfold loadFor
  cases purpose with
  | saveState =>
      dsimp only
      split
      next isPrevious =>
        refine .of_returns kept rfl (le_refl _) ?_
        intro found isFound
        cases isFound
        exact isKnown hash isPrevious.symm
      · rw [loaded]
        exact .of_continues keptAfter same counter next pending
  | setEventState shorteventid =>
      cases existed with
      | true =>
          exact .of_continues kept rfl (le_refl _) fair.2
            (fun found isFound => by cases isFound)
      | false =>
          dsimp only
          rw [if_neg Bool.false_ne_true, loaded]
          exact .of_continues keptAfter same counter next pending

theorem saveFromDiff_kept (kept : store.Kept) {parents : List ShortStateInfo}
    (waits : store.Pending hash) (based : Based store.table hash parents)
    (state : RoomState) (sibling : Nat) :
    (∃ failure, store.saveFromDiff hash (diffTo parents state.entries) sibling
        parents = (.error failure, store)) ∨
      ∃ after, store.saveFromDiff hash (diffTo parents state.entries) sibling
          parents = (.ok (), after) ∧
        after.Kept ∧ Store.Grows store after ∧ after.HasDiff hash ∧
        ∀ other, after.HasDiff other → store.HasDiff other ∨ hash = other := by
  by_cases fits : Fits (diffTo parents state.entries) sibling parents
  · obtain ⟨compressor, saved, advances, only, holds⟩ :=
      saveFromDiff_spec hash (diffTo parents state.entries) sibling
        state.entries kept.sound waits.unused waits.positive waits.issued based
        (by
          rw [diffTo_eq]
          exact Diff.between_exact _ _)
        (by
          rw [diffTo_eq]
          exact Diff.apply_between _ _)
        state.proper.keyed fits
    have grows : Store.Grows store { store with compressor } :=
      ⟨advances.table, le_refl _⟩
    refine .inr ⟨_, saved, ⟨advances.sound, ?_, ?_, ?_⟩, grows, ?_, ?_⟩
    · intro other stored
      rcases only other stored with same | old
      · rw [same]
        exact ⟨state.entries, holds⟩
      · obtain ⟨earlier, held⟩ := kept.held other old
        exact ⟨earlier, held.mono advances⟩
    · exact fun roomId other row => grows.hasDiff (kept.rooms roomId other row)
    · exact fun id other row => grows.hasDiff (kept.events id other row)
    · obtain ⟨stack, stands⟩ := holds
      exact stands.stackOf.stored_ne_none
    · intro other stored
      exact (only other stored).symm.imp_right Eq.symm
  · refine .inl ⟨.arithmetic, ?_⟩
    unfold Store.saveFromDiff
    rw [saveStateFromDiff_unfit store.compressor hash parents _ sibling fits]

section

variable [DecidableEq Digest]
  {calculateHash : List CompressedStateEvent → Digest}

theorem advance_spec (kept : store.Kept) {call : SaveCall}
    (fair : call.stage.Fair store) (finds : call.Finds calculateHash store) :
    Advanced store (store.advance calculateHash call).1 call.stage
      (store.advance calculateHash call).2 := by
  obtain ⟨purpose, roomId, state, stage⟩ := call
  cases stage with
  | begun =>
      exact .of_continues kept rfl (le_refl _)
        (fun hash row => kept.rooms roomId hash row)
        (fun hash isFound => by cases isFound)
  | previousRead previous =>
      unfold advance
      dsimp only
      split
      next hash row =>
        exact .of_continues kept rfl (le_refl _) ⟨fair, finds hash row⟩
          (fun found isFound => by cases isFound)
      · exact .of_continues kept rfl (le_refl _) fair
          (fun found isFound => by cases isFound)
  | missing previous =>
      change Advanced store { store with short := store.short.nextCount.2 }
        (.missing previous)
        (.continues (.drawn previous store.short.nextCount.1))
      rw [Short.nextCount_of_lt finds]
      refine .of_continues
        (kept.withShort (le_succ _) kept.sound.positive) rfl
        (le_succ _) ⟨fair, ?_, ?_⟩ ?_
      · exact fun older isOlder => kept.sound.fresh older (fair older isOlder)
      · exact ⟨kept.sound.unused, succ_pos _, le_refl _⟩
      · intro found isFound
        cases isFound
        exact .inr (lt_succ_self _)
  | drawn previous hash =>
      obtain ⟨isKnown, older, waits⟩ := fair
      exact .of_continues
        (kept.withShort (le_refl _) kept.sound.positive) rfl
        (le_refl _)
        ⟨isKnown, older, waits.unused, waits.positive, waits.issued⟩
        (fun found isFound => .inl isFound)
  | numbered previous hash existed => exact loadFor_advanced kept fair
  | loaded hash existed parents =>
      cases existed with
      | true =>
          exact .of_continues kept rfl (le_refl _) fair
            (fun found isFound => by cases isFound)
      | false =>
          obtain ⟨waits, based⟩ := fair
          unfold advance
          dsimp only
          rw [if_neg Bool.false_ne_true]
          obtain ⟨failure, failed⟩ | ⟨after, saved, keptAfter, grows, stored,
            only⟩ := saveFromDiff_kept kept waits based state
              purpose.diffToSibling
          · rw [failed]
            exact .of_returns kept rfl (le_refl _)
              (fun found isFound => by cases isFound)
          · rw [saved]
            refine ⟨keptAfter, grows, ?_, ?_, ?_⟩
            · intro other found
              exact (only other found).imp_right (congrArg some)
            · intro next isNext
              cases isNext
              exact ⟨stored, fun found isFound => by cases isFound⟩
            · intro found isReturn
              cases isReturn
  | saved hash =>
      cases purpose with
      | saveState =>
          refine .of_returns kept rfl (le_refl _) ?_
          intro found isFound
          cases isFound
          exact fair
      | setEventState shorteventid =>
          refine .of_returns (kept.setShortstatehash shorteventid fair) rfl
            (le_refl _) ?_
          intro found isFound
          cases isFound
          exact fair

end

/-- No two calls are going to store a diff under the same hash. -/
structure CallsInv (world : SaveWorld Digest) : Prop where
  kept : world.store.Kept
  fair : ∀ id call, world.calls id = some call → call.stage.Fair world.store
  apart : ∀ id other call otherCall hash, world.calls id = some call →
    world.calls other = some otherCall → call.stage.pending = some hash →
    otherCall.stage.pending = some hash → id = other
  returned : ∀ hash ∈ world.returned, world.store.HasDiff hash

theorem SaveStage.Fair.pending {stage : SaveStage} {hash : ShortStateHash}
    (fair : stage.Fair store) (isPending : stage.pending = some hash) :
    store.Pending hash := by
  cases stage with
  | begun | previousRead previous | missing previous => cases isPending
  | drawn previous other =>
      cases isPending
      exact fair.2.2
  | numbered previous other existed =>
      cases existed with
      | true => cases isPending
      | false =>
          cases isPending
          exact fair.2.2
  | loaded other existed parents =>
      cases existed with
      | true => cases isPending
      | false =>
          cases isPending
          exact fair.1
  | saved other => cases isPending

section

variable {world : SaveWorld Digest}

theorem CallsInv.withStore {store : Store Digest} (inv : CallsInv world)
    (kept : store.Kept) (same : store.table = world.store.table)
    (counter : world.store.short.counter ≤ store.short.counter) :
    CallsInv { world with store } := by
  have grows : Store.Grows world.store store := .of_same same counter
  refine ⟨kept, ?_, inv.apart, ?_⟩
  · intro id call isCall
    refine grows.fair (inv.fair id call isCall) (fun hash isPending => ?_)
    rw [same]
    exact ((inv.fair id call isCall).pending isPending).unused
  · exact fun hash member => grows.hasDiff (inv.returned hash member)

theorem CallsInv.withCalls {calls : Nat → Option SaveCall}
    (inv : CallsInv world) (fewer : ∀ id call, calls id = some call →
      world.calls id = some call ∨
        call.stage = .begun ∧ world.calls id = none) :
    CallsInv { world with calls } := by
  have old : ∀ id call hash, calls id = some call →
      call.stage.pending = some hash → world.calls id = some call := by
    intro id call hash isCall isPending
    rcases fewer id call isCall with same | new
    · exact same
    · rw [new.1] at isPending
      cases isPending
  refine ⟨inv.kept, ?_, ?_, inv.returned⟩
  · intro id call isCall
    rcases fewer id call isCall with same | new
    · exact inv.fair id call same
    · rw [new.1]
      trivial
  · intro id other call otherCall hash isCall isOther isPending isOtherPending
    exact inv.apart id other call otherCall hash
      (old id call hash isCall isPending)
      (old other otherCall hash isOther isOtherPending) isPending
      isOtherPending

variable {after : Store Digest}

theorem CallsInv.othersFair {progress : SaveProgress} {id other : Nat}
    {call otherCall : SaveCall} (inv : CallsInv world)
    (isCall : world.calls id = some call)
    (advanced : Advanced world.store after call.stage progress)
    (differs : id ≠ other) (isOther : world.calls other = some otherCall) :
    otherCall.stage.Fair after := by
  have fair := inv.fair other otherCall isOther
  refine advanced.grows.fair fair (fun hash isPending => ?_)
  by_contra stored
  rcases advanced.table hash stored with old | same
  · exact old (fair.pending isPending).unused
  · exact differs
      (inv.apart id other call otherCall hash isCall isOther same isPending)

theorem CallsInv.continues {id : Nat} {call : SaveCall} {next : SaveStage}
    (inv : CallsInv world) (isCall : world.calls id = some call)
    (advanced : Advanced world.store after call.stage (.continues next)) :
    CallsInv { world with
      store := after
      calls := Function.update world.calls id
        (some { call with stage := next }) } := by
  obtain ⟨fairNext, pendingNext⟩ := advanced.continues next rfl
  have split : ∀ other otherCall,
      Function.update world.calls id (some { call with stage := next })
        other = some otherCall →
      other = id ∧ otherCall = { call with stage := next } ∨
        id ≠ other ∧ world.calls other = some otherCall := by
    intro other otherCall isOther
    by_cases same : other = id
    · rw [same, Function.update_self] at isOther
      cases isOther
      exact .inl ⟨same, rfl⟩
    · rw [Function.update_of_ne same] at isOther
      exact .inr ⟨fun isSame => same isSame.symm, isOther⟩
  have clash : ∀ other otherCall hash, id ≠ other →
      world.calls other = some otherCall → next.pending = some hash →
      otherCall.stage.pending ≠ some hash := by
    intro other otherCall hash differs isOther isPending isOtherPending
    rcases pendingNext hash isPending with old | new
    · exact differs (inv.apart id other call otherCall hash isCall isOther
        old isOtherPending)
    · have issued :=
        ((inv.fair other otherCall isOther).pending isOtherPending).issued
      exact absurd new (not_lt.mpr issued)
  refine ⟨advanced.kept, ?_, ?_, fun hash member =>
    advanced.grows.hasDiff (inv.returned hash member)⟩
  · intro other otherCall isOther
    rcases split other otherCall isOther with own | foreign
    · rw [own.2]
      exact fairNext
    · exact inv.othersFair isCall advanced foreign.1 foreign.2
  · intro left right leftCall rightCall hash isLeft isRight leftPending
      rightPending
    rcases split left leftCall isLeft with leftOwn | leftForeign
    · rcases split right rightCall isRight with rightOwn | rightForeign
      · exact leftOwn.1.trans rightOwn.1.symm
      · rw [leftOwn.2] at leftPending
        exact absurd rightPending (clash right rightCall hash
          rightForeign.1 rightForeign.2 leftPending)
    · rcases split right rightCall isRight with rightOwn | rightForeign
      · rw [rightOwn.2] at rightPending
        exact absurd leftPending (clash left leftCall hash
          leftForeign.1 leftForeign.2 rightPending)
      · exact inv.apart left right leftCall rightCall hash leftForeign.2
          rightForeign.2 leftPending rightPending

theorem CallsInv.returns {id : Nat} {call : SaveCall}
    {result : Except Failure ShortStateHash} (inv : CallsInv world)
    (isCall : world.calls id = some call)
    (advanced : Advanced world.store after call.stage (.returns result)) :
    CallsInv
      { store := after
        calls := Function.update world.calls id none
        returned := result.toOption.toList ++ world.returned } := by
  have others : ∀ other otherCall,
      Function.update world.calls id none other = some otherCall →
      id ≠ other ∧ world.calls other = some otherCall := by
    intro other otherCall isOther
    by_cases same : other = id
    · rw [same, Function.update_self] at isOther
      cases isOther
    · rw [Function.update_of_ne same] at isOther
      exact ⟨fun isSame => same isSame.symm, isOther⟩
  refine ⟨advanced.kept, ?_, ?_, ?_⟩
  · intro other otherCall isOther
    obtain ⟨differs, old⟩ := others other otherCall isOther
    exact inv.othersFair isCall advanced differs old
  · intro left right leftCall rightCall hash isLeft isRight
    exact inv.apart left right leftCall rightCall hash
      (others left leftCall isLeft).2 (others right rightCall isRight).2
  · intro hash member
    rcases List.mem_append.mp member with new | old
    · cases result with
      | error failure => cases new
      | ok returned =>
          have same : hash = returned := List.mem_singleton.mp new
          rw [same]
          exact advanced.returns returned rfl
    · exact advanced.grows.hasDiff (inv.returned hash old)

end

section

variable [DecidableEq Digest]
  {calculateHash : List CompressedStateEvent → Digest}

def StepFinds (calculateHash : List CompressedStateEvent → Digest)
    (world : SaveWorld Digest) : SaveAction → Prop
  | .advance id => ∀ call ∈ world.calls id, call.Finds calculateHash world.store
  | _ => True

instance (store : Store Digest) (row : Option ShortStateHash) :
    (stage : SaveStage) → Decidable (stage.Finds store row)
  | .previousRead _ =>
      inferInstanceAs (Decidable (∀ hash ∈ row, store.table hash ≠ none))
  | .missing _ =>
      inferInstanceAs (Decidable (store.short.counter < u64Max))
  | .begun => isTrue trivial
  | .drawn _ _ => isTrue trivial
  | .numbered _ _ _ => isTrue trivial
  | .loaded _ _ _ => isTrue trivial
  | .saved _ => isTrue trivial

instance (world : SaveWorld Digest) :
    (action : SaveAction) → Decidable (StepFinds calculateHash world action)
  | .advance id =>
      inferInstanceAs (Decidable (∀ call ∈ world.calls id,
        call.stage.Finds world.store (world.store.short.statehashShortstatehash
            (calculateHash call.state.entries.sort))))
  | .start _ _ _ _ => isTrue trivial
  | .setRoomState _ _ => isTrue trivial
  | .drop _ => isTrue trivial
  | .crash => isTrue trivial
  | .clearCache => isTrue trivial
  | .drawCount => isTrue trivial

theorem CallsInv.step {world : SaveWorld Digest} (inv : CallsInv world)
    (action : SaveAction) (finds : StepFinds calculateHash world action) :
    CallsInv (world.step calculateHash action).1 := by
  cases action with
  | start id purpose roomId state =>
      cases isFree : world.calls id with
      | some call =>
          simp only [SaveWorld.step, isFree]
          exact inv
      | none =>
          simp only [SaveWorld.step, isFree]
          refine inv.withCalls (fun other call isCall => ?_)
          by_cases same : other = id
          · rw [same, Function.update_self] at isCall
            cases isCall
            rw [same]
            exact .inr ⟨rfl, isFree⟩
          · rw [Function.update_of_ne same] at isCall
            exact .inl isCall
  | advance id =>
      cases isCall : world.calls id with
      | none =>
          simp only [SaveWorld.step, isCall]
          exact inv
      | some call =>
          simp only [SaveWorld.step, isCall]
          have advanced := advance_spec inv.kept
            (inv.fair id call isCall) (finds call isCall)
          generalize world.store.advance calculateHash call = reached at *
          obtain ⟨after, progress⟩ := reached
          cases progress with
          | continues next => exact inv.continues isCall advanced
          | returns result => exact inv.returns isCall advanced
  | setRoomState roomId hash =>
      unfold SaveWorld.step
      dsimp only
      split
      next member =>
        exact inv.withStore
          (inv.kept.setRoomState roomId (inv.returned hash member)) rfl
          (le_refl _)
      · exact inv
  | drop id =>
      refine inv.withCalls (fun other call isCall => .inl ?_)
      by_cases same : other = id
      · rw [same] at isCall
        change Function.update world.calls id none id = some call at isCall
        rw [Function.update_self] at isCall
        cases isCall
      · change Function.update world.calls id none other = some call at isCall
        rw [Function.update_of_ne same] at isCall
        exact isCall
  | crash =>
      refine (inv.withStore inv.kept.clearCache rfl
        (le_refl _)).withCalls (fun other call isCall => ?_)
      cases isCall
  | clearCache =>
      exact inv.withStore inv.kept.clearCache rfl (le_refl _)
  | drawCount =>
      exact inv.withStore
        (inv.kept.withShort (Short.nextCount_le _) inv.kept.sound.positive)
        rfl (Short.nextCount_le _)

omit [DecidableEq Digest] in
theorem callsInv_empty (cacheCapacity : Nat) :
    CallsInv (.empty cacheCapacity : SaveWorld Digest) := by
  refine ⟨⟨Store.sound_empty cacheCapacity, ?_, ?_, ?_⟩, ?_, ?_, ?_⟩
  · intro hash stored
    exact absurd rfl stored
  · intro roomId hash found
    cases found
  · intro shorteventid hash found
    cases found
  · intro id call isCall
    cases isCall
  · intro id other call otherCall hash isCall
    cases isCall
  · intro hash member
    cases member

def SaveWorld.Mentions (world : SaveWorld Digest) (hash : ShortStateHash) :
    Prop :=
  hash ∈ world.returned ∨
    (∃ roomId, world.store.roomidShortstatehash roomId = some hash) ∨
    ∃ shorteventid,
      world.store.shorteventidShortstatehash shorteventid = some hash

def SaveWorld.Loads (world : SaveWorld Digest) (hash : ShortStateHash) :
    Prop :=
  world.store.HasDiff hash ∧
    ∃ stack after, world.store.loadInfo hash = (.ok stack, after)

omit [DecidableEq Digest] in
theorem CallsInv.loads {world : SaveWorld Digest} (inv : CallsInv world)
    {hash : ShortStateHash} (mentioned : world.Mentions hash) :
    world.Loads hash := by
  have stored : world.store.HasDiff hash := by
    obtain returned | ⟨roomId, found⟩ | ⟨shorteventid, found⟩ := mentioned
    · exact inv.returned hash returned
    · exact inv.kept.rooms roomId hash found
    · exact inv.kept.events shorteventid hash found
  have isKnown : world.store.Known (some hash) := by
    intro other same
    cases same
    exact stored
  obtain ⟨stack, after, loaded, _⟩ := loadParents_kept inv.kept isKnown
  exact ⟨stored, stack, after, loaded⟩

/-- Calls beside each other never let a hash out before its diff is stored, as
long as none of them finds a row whose diff is not. -/
theorem mentioned_loads {cacheCapacity : Nat}
    {history : List (Entry (SaveWorld Digest) SaveAction
      (Option (Except Failure ShortStateHash)))}
    {world : SaveWorld Digest}
    (reaches : Reaches (SaveWorld.step calculateHash) (.empty cacheCapacity)
      history world)
    (finds : Always (fun _ entry =>
      StepFinds calculateHash entry.before entry.input) history)
    (hash : ShortStateHash) (mentioned : world.Mentions hash) :
    world.Loads hash := by
  have inv := reaches.invariant (fun _ world => CallsInv world)
    (callsInv_empty cacheCapacity)
    (fun _ _ action inv finds => inv.step action finds) finds
  exact inv.loads mentioned

end

end

/-! Two calls with the same state.  The second one begins when the first has
stored its diff, or when it has only stored the row. -/

namespace SameState

def world : SaveWorld (List CompressedStateEvent) := .empty 16

def first : List SaveAction :=
  .start 0 .saveState "!room" createState :: List.replicate 4 (.advance 0)

def second : List SaveAction :=
  .start 1 (.setEventState 5) "!room" createState ::
    List.replicate 4 (.advance 1) ++ [.setRoomState "!room" 1]

def oneAfterOther : List SaveAction :=
  first ++ List.replicate 3 (.advance 0) ++ second

def oneInOther : List SaveAction := first ++ second

/-- The second call finds the row and the diff of the first. -/
theorem oneAfterOther_loads :
    (run (SaveWorld.step listHash) world oneAfterOther).2.Mentions 1 ∧
      (run (SaveWorld.step listHash) world oneAfterOther).2.Loads 1 := by
  have returned :
      1 ∈ (run (SaveWorld.step listHash) world oneAfterOther).2.returned := by
    decide +kernel
  exact ⟨.inl returned, mentioned_loads (reaches_run _ _ _)
      (Always.of_forall_mem (by decide +kernel)) 1 (.inl returned)⟩

/-- The second call finds the row of the first, and its hash gets everywhere
before there is a diff. -/
theorem oneInOther_missing :
    let ended := (run (SaveWorld.step listHash) world oneInOther).2
    ended.returned = [1] ∧
      ended.store.roomidShortstatehash "!room" = some 1 ∧
      ended.store.shorteventidShortstatehash 5 = some 1 ∧
      ¬ ended.store.HasDiff 1 ∧
      (ended.store.loadInfo 1).1.toOption = none := by
  refine ⟨by decide +kernel, by decide +kernel, by decide +kernel, ?_, ?_⟩
  · unfold Store.HasDiff
    decide +kernel
  · decide +kernel

end SameState

end ArcanaServer.Rooms
