import ArcanaServer.Rooms.StateHistory

namespace ArcanaServer.Rooms

open Library ArcanaServer.Matrix StateCompressor

variable {Digest : Type}

namespace Short

/-- No two state keys have one short id, and none has an id that is yet to be
drawn. -/
structure KeysApart (short : Short Digest) : Prop where
  apart : ∀ key other id, short.statekeyShortstatekey key = some id →
    short.statekeyShortstatekey other = some id → key = other
  drawn : ∀ key id, short.statekeyShortstatekey key = some id →
    id ≤ short.counter

section

variable {before after short : Short Digest}

theorem KeysApart.mono (keys : before.KeysApart)
    (rows : after.statekeyShortstatekey = before.statekeyShortstatekey)
    (counter : before.counter ≤ after.counter) : after.KeysApart := by
  constructor
  · intro key other id found found'
    rw [rows] at found found'
    exact keys.apart key other id found found'
  · intro key id found
    rw [rows] at found
    exact (keys.drawn key id found).trans counter

theorem getOrCreateShorteventid_keys (short : Short Digest)
    (eventId : EventId) :
    (short.getOrCreateShorteventid eventId).2.statekeyShortstatekey =
      short.statekeyShortstatekey := by
  unfold getOrCreateShorteventid
  split <;> rfl

theorem getOrCreateShortstatekey_row (short : Short Digest)
    (key : TypeStateKey) :
    (short.getOrCreateShortstatekey key).2.statekeyShortstatekey key =
      some (short.getOrCreateShortstatekey key).1 := by
  unfold getOrCreateShortstatekey
  cases found : short.statekeyShortstatekey key with
  | some id => exact found
  | none => exact Function.update_self _ _ _

theorem KeysApart.getOrCreateShortstatekey (keys : short.KeysApart)
    (key : TypeStateKey)
    (room : (short.getOrCreateShortstatekey key).2.counter < u64Max) :
    (short.getOrCreateShortstatekey key).2.KeysApart := by
  cases found : short.statekeyShortstatekey key with
  | some id =>
      simp only [Short.getOrCreateShortstatekey, found]
      exact keys
  | none =>
      have counter : short.counter < u64Max := by
        have grows := (short.getOrCreateShortstatekey_extends key).counter
        exact Nat.lt_of_le_of_lt grows room
      simp only [Short.getOrCreateShortstatekey, found, nextCount_of_lt counter]
      have unissued : ∀ other id, short.statekeyShortstatekey other = some id →
            id ≠ short.counter + 1 := by
        intro other id known same
        have drawn := keys.drawn other id known
        rw [same] at drawn
        exact Nat.not_succ_le_self _ drawn
      constructor
      · intro left right id leftRow rightRow
        rcases update_eq_some leftRow with leftOld | leftNew
        · rcases update_eq_some rightRow with rightOld | rightNew
          · exact keys.apart left right id leftOld rightOld
          · exact absurd rightNew.2 (unissued left id leftOld)
        · rcases update_eq_some rightRow with rightOld | rightNew
          · exact absurd leftNew.2 (unissued right id rightOld)
          · exact leftNew.1.trans rightNew.1.symm
      · intro other id row
        rcases update_eq_some row with old | new
        · exact (keys.drawn other id old).trans (Nat.le_succ _)
        · exact Nat.le_of_eq new.2

theorem getOrCreateShortstatehash_le [DecidableEq Digest]
    (short : Short Digest) (stateHash : Digest) :
    short.counter ≤ (short.getOrCreateShortstatehash stateHash).2.counter := by
  unfold getOrCreateShortstatehash
  split
  · exact Nat.le_refl _
  · exact nextCount_le short

end

end Short

namespace Store

def fullStateOf (store : Store Digest) (hash : ShortStateHash) :
    Option CompressedState :=
  match (store.loadInfo hash).1 with
  | .ok (top :: _) => some top.fullState
  | _ => none

def fullStateIn (store : Store Digest) (roomId : RoomId) :
    Option CompressedState :=
  match store.roomidShortstatehash roomId with
  | some current => store.fullStateOf current
  | none => some ∅

def ReplacesEntry (store : Store Digest) (newPdu : Pdu) (roomId : RoomId) :
    Prop :=
  ∀ stateKey hash after, newPdu.stateKey = some stateKey →
    store.appendToState newPdu roomId = (.ok hash, after) →
      ∃ previous, store.fullStateIn roomId = some previous ∧
        after.fullStateOf hash =
          some (replaceEntry previous (appendedEvent store newPdu stateKey)) ∧
        Proper (replaceEntry previous (appendedEvent store newPdu stateKey)) ∧
        ∀ key, after.short.statekeyShortstatekey key =
            some (keyOf (appendedEvent store newPdu stateKey)) ↔
          key = (newPdu.kind, stateKey)

variable {store : Store Digest}

theorem Holds.fullStateOf {hash : ShortStateHash} {state : CompressedState}
    (sound : store.Sound) (holds : store.Holds hash state) :
    store.fullStateOf hash = some state := by
  obtain ⟨top, below, loaded, full⟩ := load_of_holds sound holds
  unfold Store.fullStateOf
  rw [loaded]
  exact congrArg some full

/-- Every stored hash stands for a state with one event for each state key. -/
structure Legible (store : Store Digest) : Prop where
  sound : store.Sound
  proper : ∀ hash, store.table hash ≠ none →
    ∃ state, Proper state ∧ store.Holds hash state
  keys : store.short.KeysApart

structure Keeps (before after : Store Digest) : Prop where
  advances : Advances before after
  proper : ∀ hash, after.table hash ≠ none →
    before.table hash ≠ none ∨ ∃ state, Proper state ∧ after.Holds hash state
  keys : before.short.KeysApart → after.short.KeysApart

theorem Keeps.trans {first second third : Store Digest}
    (left : Keeps first second) (right : Keeps second third) :
    Keeps first third := by
  refine ⟨left.advances.trans right.advances, ?_,
    fun keys => right.keys (left.keys keys)⟩
  intro hash stored
  rcases right.proper hash stored with old | new
  · rcases left.proper hash old with older | new
    · exact .inl older
    · obtain ⟨state, proper, holds⟩ := new
      exact .inr ⟨state, proper, holds.mono right.advances⟩
  · exact .inr new

variable {before after : Store Digest}

theorem Legible.keeps (legible : before.Legible) (keeps : Keeps before after) :
    after.Legible := by
  refine ⟨keeps.advances.sound, ?_, keeps.keys legible.keys⟩
  intro hash stored
  rcases keeps.proper hash stored with old | new
  · obtain ⟨state, proper, holds⟩ := legible.proper hash old
    exact ⟨state, proper, holds.mono keeps.advances⟩
  · exact new

theorem Keeps.of_table (advances : Advances before after)
    (table : after.table = before.table)
    (keys : before.short.KeysApart → after.short.KeysApart) :
    Keeps before after := by
  refine ⟨advances, ?_, keys⟩
  intro hash stored
  rw [table] at stored
  exact .inl stored

theorem Sound.keeps (sound : store.Sound) : Keeps store store :=
  .of_table ⟨sound, fun _ _ found => found, rfl⟩ rfl id

theorem Keeps.setShortstatehash (keeps : Keeps before after)
    (shorteventid : ShortEventId) (hash : ShortStateHash) :
    Keeps before (after.setShortstatehash shorteventid hash) := by
  refine ⟨keeps.advances.setShortstatehash shorteventid hash, ?_, keeps.keys⟩
  intro other stored
  exact keeps.proper other stored

theorem Keeps.recordPrevious (keeps : Keeps before after)
    (shorteventid : ShortEventId) (previous : Option ShortStateHash) :
    Keeps before (after.recordPrevious shorteventid previous) := by
  cases previous with
  | none => exact keeps
  | some previous => exact keeps.setShortstatehash shorteventid previous

theorem Sound.keeps_withEvent (sound : store.Sound) (eventId : EventId) :
    Keeps store (store.withEvent eventId) :=
  .of_table (sound.withEvent eventId) rfl fun keys =>
    keys.mono (store.short.getOrCreateShorteventid_keys eventId)
      (store.short.getOrCreateShorteventid_extends eventId).counter

theorem Sound.keeps_withKey (sound : store.Sound) (key : TypeStateKey)
    (room : (store.withKey key).short.counter < u64Max) :
    Keeps store (store.withKey key) :=
  .of_table (sound.withKey key) rfl fun keys =>
    keys.getOrCreateShortstatekey key room

theorem Sound.keeps_nextCount (sound : store.Sound) :
    Keeps store { store with short := { store.short with
      counter := store.short.counter + 1 } } :=
  .of_table sound.nextCount rfl fun keys => keys.mono rfl (Nat.le_succ _)

theorem Sound.keeps_withRow [DecidableEq Digest] (sound : store.Sound)
    (stateHash : Digest) : Keeps store (store.withRow stateHash) :=
  .of_table (sound.withRow stateHash) rfl fun keys =>
    keys.mono rfl (Nat.le_succ _)

theorem Legible.parents (legible : store.Legible) {previous : ShortStateHash}
    (stored : store.table previous ≠ none) :
    ∃ stack, store.ParentsOf (some previous) stack ∧ Proper (baseOf stack) ∧
      store.Holds previous (baseOf stack) := by
  obtain ⟨state, proper, stack, stands⟩ := legible.proper previous stored
  have ends := stands.ends
  subst ends
  exact ⟨stack, ⟨stands.stackOf, stands.layered⟩, proper, stack, stands⟩

theorem loadParents_keeps (legible : store.Legible)
    (previous : Option ShortStateHash) :
    ∃ result after, store.loadParents previous = (result, after) ∧
      Keeps store after ∧ after.short = store.short ∧
      after.table = store.table ∧
      ∀ stack, result = .ok stack →
        store.ParentsOf previous stack ∧ Proper (baseOf stack) ∧
          ∀ hash, previous = some hash → store.Holds hash (baseOf stack) := by
  cases previous with
  | none =>
      refine ⟨.ok [], store, rfl, legible.sound.keeps, rfl, rfl, ?_⟩
      intro stack same
      cases same
      refine ⟨rfl, proper_empty, ?_⟩
      intro hash impossible
      cases impossible
  | some hash =>
      rcases Decidable.em (store.table hash = none) with missing | stored
      · have failed := loadInfo_missing legible.sound missing
        refine ⟨.error (.missingStateDiff hash), store, ?_,
          legible.sound.keeps, rfl, rfl, ?_⟩
        · simp only [loadParents, loadInfo, failed]
        · intro stack impossible
          cases impossible
      · obtain ⟨stack, parents, proper, holds⟩ := legible.parents stored
        obtain ⟨cache, loaded, advances⟩ :=
          loadParents_spec legible.sound parents
        refine ⟨.ok stack, _, loaded, .of_table advances rfl id, rfl, rfl, ?_⟩
        intro stack' same
        cases same
        refine ⟨parents, proper, ?_⟩
        intro hash' same
        cases same
        exact holds

theorem saveFromDiff_keeps (hash : ShortStateHash)
    (diff : Diff CompressedStateEvent) (diffToSibling : Nat)
    {stack : List ShortStateInfo} (state : CompressedState)
    (sound : store.Sound) (unused : store.table hash = none)
    (positive : 0 < hash) (issued : hash ≤ store.short.counter)
    (based : Based store.table hash stack) (exact : diff.Exact (baseOf stack))
    (reaches : diff.apply (baseOf stack) = state) (proper : Proper state) :
    ∃ result after,
      store.saveFromDiff hash diff diffToSibling stack = (result, after) ∧
        Keeps store after ∧ after.short = store.short ∧
        (result = .ok () → after.Holds hash state) := by
  by_cases fits : Fits diff diffToSibling stack
  · obtain ⟨compressor, saved, advances, only, holds⟩ :=
      saveFromDiff_spec hash diff diffToSibling state sound unused positive
        issued based exact reaches proper.keyed fits
    refine ⟨_, _, saved, ⟨advances, ?_, id⟩, rfl, fun _ => holds⟩
    intro other stored
    rcases only other stored with same | old
    · rw [same]
      exact .inr ⟨state, proper, holds⟩
    · exact .inl old
  · refine ⟨.error .arithmetic, store, ?_, sound.keeps, rfl, ?_⟩
    · unfold saveFromDiff
      rw [saveStateFromDiff_unfit store.compressor hash stack _ _ fits]
    · intro impossible
      cases impossible

/-- A short id is drawn, and under it a state that is the state below with one
entry replaced is saved. -/
theorem saveReplaced_keeps (sound : store.Sound)
    (room : store.short.counter < u64Max) {stack : List ShortStateInfo}
    {new : CompressedStateEvent} (proper : Proper (baseOf stack))
    (positive : 0 < keyOf new)
    (unknown : some new ≠ replaces (keyOf new) (baseOf stack))
    (based : Based store.table (store.short.counter + 1) stack) :
    ∃ result after,
      Store.saveFromDiff { store with short := store.short.nextCount.2 }
          store.short.nextCount.1 (replaceDiff (baseOf stack) new) 2 stack =
        (result, after) ∧
      Keeps store after ∧ after.short = store.short.nextCount.2 ∧
      (result = .ok () → after.Holds store.short.nextCount.1
        (replaceEntry (baseOf stack) new)) := by
  have drawn := sound.keeps_nextCount
  obtain ⟨result, after, saved, saves, sameShort, holds⟩ :=
    saveFromDiff_keeps (store.short.counter + 1)
      (replaceDiff (baseOf stack) new) 2 (replaceEntry (baseOf stack) new)
      drawn.advances.sound sound.unused (Nat.succ_pos _) (Nat.le_refl _)
      based (proper.replaceDiff_exact unknown)
      (proper.replaceDiff_apply unknown)
      (proper.replaceEntry (Nat.ne_of_gt positive))
  rw [Short.nextCount_of_lt room]
  exact ⟨result, after, saved, drawn.trans saves, sameShort, holds⟩

theorem loadParents_short (store : Store Digest)
    (previous : Option ShortStateHash) :
    (store.loadParents previous).2.short = store.short := by
  cases previous <;> rfl

theorem saveFromDiff_short (store : Store Digest) (hash : ShortStateHash)
    (diff : Diff CompressedStateEvent) (diffToSibling : Nat)
    (stack : List ShortStateInfo) :
    (store.saveFromDiff hash diff diffToSibling stack).2.short =
      store.short := by
  unfold saveFromDiff
  split <;> rfl

section

variable [DecidableEq Digest]
  (calculateHash : List CompressedStateEvent → Digest)

theorem saveState_short (store : Store Digest) (roomId : RoomId)
    (state : CompressedState) :
    (store.saveState calculateHash roomId state).2.short =
      (store.short.getOrCreateShortstatehash (calculateHash state.sort)).2 := by
  simp only [saveState]
  split
  · rfl
  · split
    · exact loadParents_short _ _
    · exact (saveFromDiff_short _ _ _ _ _).trans (loadParents_short _ _)

theorem setEventState_short (store : Store Digest) (eventId : EventId)
    (roomId : RoomId) (state : CompressedState) :
    (store.setEventState calculateHash eventId roomId state).2.short =
      ((store.withEvent eventId).short.getOrCreateShortstatehash
        (calculateHash state.sort)).2 := by
  simp only [setEventState, withEvent]
  split
  · rfl
  · split
    next loaded =>
      have short := congrArg (fun ended => ended.2.short) loaded
      exact short.symm.trans (loadParents_short _ _)
    next loaded =>
      have short := congrArg (fun ended => ended.2.short) loaded
      have loads := short.symm.trans (loadParents_short _ _)
      split
      next saved =>
        have short := congrArg (fun ended => ended.2.short) saved
        exact (short.symm.trans (saveFromDiff_short _ _ _ _ _)).trans loads
      next saved =>
        have short := congrArg (fun ended => ended.2.short) saved
        exact (short.symm.trans (saveFromDiff_short _ _ _ _ _)).trans loads

omit [DecidableEq Digest] in
theorem appendStateEvent_le (store : Store Digest)
    (previous : Option ShortStateHash) (shorteventid : ShortEventId)
    (key : TypeStateKey) :
    (store.appendStateEvent previous shorteventid key).2.short.counter =
        store.short.counter ∨
      (store.withKey key).short.counter ≤
        (store.appendStateEvent previous shorteventid key).2.short.counter := by
  simp only [appendStateEvent]
  split
  next loaded =>
    left
    have short := congrArg (fun ended => ended.2.short) loaded
    rw [← short, loadParents_short]
  next loaded =>
    right
    have short := congrArg (fun ended => ended.2.short) loaded
    have loads := short.symm.trans (loadParents_short _ _)
    simp only at loads
    simp only [loads]
    split
    · split <;> exact Nat.le_refl _
    · simp only [answering, saveFromDiff_short]
      exact Short.nextCount_le _

end

theorem appendStateEvent_keeps {store : Store Digest}
    (legible : store.Legible) (previous : Option ShortStateHash)
    (shorteventid : ShortEventId) (key : TypeStateKey)
    (room : (store.appendStateEvent previous shorteventid
      key).2.short.counter < u64Max) :
    ∃ result after,
      store.appendStateEvent previous shorteventid key = (result, after) ∧
        Keeps store after ∧
        ∀ hash, result = .ok hash → ∃ stack, store.ParentsOf previous stack ∧
            Proper (replaceEntry (baseOf stack)
              (store.newEvent shorteventid key)) ∧
            after.Holds hash (replaceEntry (baseOf stack)
              (store.newEvent shorteventid key)) ∧
            after.short.statekeyShortstatekey =
              (store.withKey key).short.statekeyShortstatekey := by
  obtain ⟨loaded, loadedStore, loads, keeps, short, table, found⟩ :=
    loadParents_keeps legible previous
  cases loaded with
  | error failure =>
      refine ⟨.error failure, loadedStore, ?_, keeps, ?_⟩
      · simp only [appendStateEvent, loads]
      · intro hash impossible
        cases impossible
  | ok stack =>
      obtain ⟨parents, proper, current⟩ := found stack rfl
      have positive : 0 < keyOf (store.newEvent shorteventid key) :=
        Short.getOrCreateShortstatekey_positive legible.sound.positive key
      have replaced := proper.replaceEntry (Nat.ne_of_gt positive)
      simp only [appendStateEvent, loads, short] at room ⊢
      split at room
      next same =>
        have known : some (store.newEvent shorteventid key) =
            replaces (keyOf (store.newEvent shorteventid key))
              (baseOf stack) := same
        rw [if_pos same]
        cases previous with
        | none =>
            have empty : stack = [] := parents
            subst empty
            exact absurd (replaces_eq_some known.symm).1 (Finset.notMem_empty _)
        | some previous =>
            have keyed := keeps.advances.sound.keeps_withKey key (by
              simp only [withKey, short]
              exact room)
            simp only [withKey, short] at keyed
            refine ⟨.ok previous, _, rfl, keeps.trans keyed, ?_⟩
            intro hash same'
            cases same'
            refine ⟨stack, parents, replaced, ?_, rfl⟩
            rw [proper.replaceEntry_eq known.symm]
            exact (current previous rfl).mono
              (keeps.advances.trans keyed.advances)
      next different =>
        have unknown : some (store.newEvent shorteventid key) ≠
            replaces (keyOf (store.newEvent shorteventid key))
              (baseOf stack) := different
        rw [if_neg different]
        simp only [answering, saveFromDiff_short] at room
        have counter : (store.withKey key).short.counter < u64Max :=
          Nat.lt_of_le_of_lt (Short.nextCount_le _) room
        have keyed := keeps.advances.sound.keeps_withKey key (by
          simp only [withKey, short]
          exact counter)
        simp only [withKey, short] at keyed
        have based : Based loadedStore.table
            ((store.withKey key).short.counter + 1) stack := by
          rw [table]
          apply parents.based
          intro older stored
          rw [← table] at stored
          exact keyed.advances.sound.fresh older stored
        obtain ⟨result, after, saved, saves, sameShort, holds⟩ :=
          saveReplaced_keeps keyed.advances.sound counter proper positive
            unknown based
        refine ⟨result.map fun _ =>
          (store.short.getOrCreateShortstatekey key).2.nextCount.1, after,
          congrArg (answering _) saved, (keeps.trans keyed).trans saves, ?_⟩
        intro hash answered
        cases result with
        | error failure => cases answered
        | ok =>
            cases answered
            refine ⟨stack, parents, replaced, holds rfl, ?_⟩
            rw [sameShort]
            exact congrArg (fun drawn => drawn.2.statekeyShortstatekey)
              (Short.nextCount_of_lt counter)

theorem Legible.withCache {store : Store Digest} (legible : store.Legible)
    {cache : LruCache ShortStateHash (List ShortStateInfo)}
    (valid : CacheValid { store.compressor with stateinfoCache := cache }) :
    Keeps store { store with
      compressor := { store.compressor with stateinfoCache := cache } } :=
  .of_table ⟨⟨valid, legible.sound.bounded, legible.sound.frames,
    legible.sound.positive⟩, fun _ _ found => found, rfl⟩ rfl id

section

variable [DecidableEq Digest]
  (calculateHash : List CompressedStateEvent → Digest)

variable {store : Store Digest}

/-- A hash is drawn for a new state, the parents are loaded, and the difference
to them, or to nothing if they cannot be loaded, is saved. -/
theorem saveNew_keeps (legible : store.Legible) (stateHash : Digest)
    (previous : Option ShortStateHash) (diffToSibling : Nat)
    {state : CompressedState} (proper : Proper state) :
    ∃ loaded loadedStore, (store.withRow stateHash).loadParents previous =
          (loaded, loadedStore) ∧
        Keeps store loadedStore ∧
        ∀ stack, loaded = .ok stack ∨ stack = [] →
          Keeps store (loadedStore.saveFromDiff (store.short.counter + 1)
            (diffTo stack state) diffToSibling stack).2 := by
  have drawn := legible.sound.keeps_withRow stateHash
  obtain ⟨loaded, loadedStore, loads, keeps, short, table, found⟩ :=
    loadParents_keeps (legible.keeps drawn) previous
  refine ⟨loaded, loadedStore, loads, drawn.trans keeps, ?_⟩
  intro stack isStack
  have based : Based loadedStore.table (store.short.counter + 1) stack := by
    rw [table]
    rcases isStack with isLoaded | empty
    · exact (found stack isLoaded).1.based legible.sound.fresh
    · rw [empty]
      exact .none
  obtain ⟨result, after, saved, saves, _, _⟩ :=
    saveFromDiff_keeps (store.short.counter + 1) (diffTo stack state)
      diffToSibling state keeps.advances.sound
      (by
        rw [table]
        exact legible.sound.unused)
      (Nat.succ_pos _)
      (by
        rw [short]
        exact Nat.le_refl _)
      based
      (by
        rw [diffTo_eq]
        exact Diff.between_exact _ _)
      (by
        rw [diffTo_eq]
        exact Diff.apply_between _ _)
      proper
  rw [saved]
  exact (drawn.trans keeps).trans saves

theorem saveState_keeps (legible : store.Legible) (roomId : RoomId)
    (state : RoomState) (room : (store.saveState calculateHash roomId
      state.entries).2.short.counter < u64Max) :
    Keeps store (store.saveState calculateHash roomId state.entries).2 := by
  rw [saveState_short] at room
  cases found : store.short.statehashShortstatehash
      (calculateHash state.entries.sort) with
  | some hash =>
      have row : store.short.getOrCreateShortstatehash
          (calculateHash state.entries.sort) = ((hash, true), store.short) := by
        simp only [Short.getOrCreateShortstatehash, found]
      obtain ⟨loaded, loadedStore, loads, keeps, _⟩ :=
        loadParents_keeps legible (store.roomidShortstatehash roomId)
      simp only [saveState, row]
      split
      · exact legible.sound.keeps
      · simp only [if_true, loads]
        exact keeps
  | none =>
      have counter := Nat.lt_of_le_of_lt
        (store.short.getOrCreateShortstatehash_le _) room
      obtain ⟨loaded, loadedStore, loads, keeps, saves⟩ :=
        saveNew_keeps legible (calculateHash state.entries.sort)
          (store.roomidShortstatehash roomId) 2 state.proper
      have drawn : { store with short := (store.withRow
          (calculateHash state.entries.sort)).short } =
            store.withRow (calculateHash state.entries.sort) := rfl
      simp only [saveState, getOrCreateShortstatehash_new found counter, drawn]
      split
      · exact legible.sound.keeps_withRow _
      · simp only [loads, Bool.false_eq_true, if_false, answering]
        apply saves
        cases loaded with
        | error failure => exact .inr rfl
        | ok stack => exact .inl rfl

theorem setEventState_keeps (legible : store.Legible) (eventId : EventId)
    (roomId : RoomId) (state : RoomState)
    (room : (store.setEventState calculateHash eventId roomId
      state.entries).2.short.counter < u64Max) :
    Keeps store
      (store.setEventState calculateHash eventId roomId state.entries).2 := by
  rw [setEventState_short] at room
  have drawn := legible.sound.keeps_withEvent eventId
  cases found : (store.withEvent eventId).short.statehashShortstatehash
      (calculateHash state.entries.sort) with
  | some hash =>
      have row : (store.withEvent eventId).short.getOrCreateShortstatehash
          (calculateHash state.entries.sort) =
            ((hash, true), (store.withEvent eventId).short) := by
        simp only [Short.getOrCreateShortstatehash, found]
      simp only [withEvent] at row
      simp only [setEventState, row, if_true]
      exact drawn.setShortstatehash _ hash
  | none =>
      have counter := Nat.lt_of_le_of_lt
        ((store.withEvent eventId).short.getOrCreateShortstatehash_le _) room
      obtain ⟨loaded, loadedStore, loads, keeps, saves⟩ :=
        saveNew_keeps (legible.keeps drawn) (calculateHash state.entries.sort)
          (store.roomidShortstatehash roomId) 1000000 state.proper
      have row := getOrCreateShortstatehash_new found counter
      have drawnRow : { store with short := ((store.withEvent eventId).withRow
          (calculateHash state.entries.sort)).short } =
            (store.withEvent eventId).withRow
              (calculateHash state.entries.sort) := rfl
      simp only [withEvent] at row drawnRow loads saves
      simp only [setEventState, row, Bool.false_eq_true, if_false, drawnRow,
        loads]
      cases loaded with
      | error failure => exact drawn.trans keeps
      | ok stack =>
          have saved := drawn.trans (saves stack (.inl rfl))
          simp only
          split
          next ends =>
            rw [ends] at saved
            exact saved
          next ends =>
            rw [ends] at saved
            exact saved.setShortstatehash _ _

end

def withRecord (store : Store Digest) (newPdu : Pdu) (roomId : RoomId) :
    Store Digest :=
  (store.withEvent newPdu.eventId).recordPrevious
    (store.short.getOrCreateShorteventid newPdu.eventId).1
    (store.roomidShortstatehash roomId)

theorem withRecord_short (store : Store Digest) (newPdu : Pdu)
    (roomId : RoomId) : (store.withRecord newPdu roomId).short =
      (store.withEvent newPdu.eventId).short :=
  recordPrevious_short _ _ _

theorem withRecord_table (store : Store Digest) (newPdu : Pdu)
    (roomId : RoomId) :
    (store.withRecord newPdu roomId).table = store.table := by
  simp only [withRecord, table, recordPrevious_compressor]
  rfl

theorem appendToState_state {newPdu : Pdu} {stateKey : StateKey}
    (isState : newPdu.stateKey = some stateKey) (store : Store Digest)
    (roomId : RoomId) :
    store.appendToState newPdu roomId =
      (store.withRecord newPdu roomId).appendStateEvent
        (store.roomidShortstatehash roomId)
        (store.short.getOrCreateShorteventid newPdu.eventId).1
        (newPdu.kind, stateKey) := by
  simp only [appendToState, isState]
  rfl

theorem appendToState_message {newPdu : Pdu}
    (isMessage : newPdu.stateKey = none) (store : Store Digest)
    (roomId : RoomId) : (store.appendToState newPdu roomId).2 =
      store.withRecord newPdu roomId := by
  simp only [appendToState, isMessage]
  split <;> rfl

variable {store : Store Digest}

theorem Sound.keeps_withRecord (sound : store.Sound) (newPdu : Pdu)
    (roomId : RoomId) : Keeps store (store.withRecord newPdu roomId) :=
  (sound.keeps_withEvent newPdu.eventId).recordPrevious _ _

theorem appendToState_le (store : Store Digest) (newPdu : Pdu)
    (roomId : RoomId) :
    store.short.counter ≤
      (store.appendToState newPdu roomId).2.short.counter := by
  have drawn : store.short.counter ≤
      (store.withRecord newPdu roomId).short.counter := by
    rw [withRecord_short]
    exact (store.short.getOrCreateShorteventid_extends newPdu.eventId).counter
  apply drawn.trans
  cases isState : newPdu.stateKey with
  | none => rw [appendToState_message isState]
  | some stateKey =>
      rw [appendToState_state isState]
      cases appendStateEvent_le (store.withRecord newPdu roomId)
          (store.roomidShortstatehash roomId)
          (store.short.getOrCreateShorteventid newPdu.eventId).1
          (newPdu.kind, stateKey) with
      | inl same => exact Nat.le_of_eq same.symm
      | inr keyed =>
          have issued := ((store.withRecord newPdu
            roomId).short.getOrCreateShortstatekey_extends
              (newPdu.kind, stateKey)).counter
          exact issued.trans keyed

theorem appendToState_keeps (legible : store.Legible) (newPdu : Pdu)
    (roomId : RoomId)
    (room : (store.appendToState newPdu roomId).2.short.counter < u64Max) :
    Keeps store (store.appendToState newPdu roomId).2 := by
  have recorded := legible.sound.keeps_withRecord newPdu roomId
  cases isState : newPdu.stateKey with
  | none =>
      rw [appendToState_message isState]
      exact recorded
  | some stateKey =>
      rw [appendToState_state isState] at room ⊢
      obtain ⟨result, after, appended, keeps, _⟩ :=
        appendStateEvent_keeps (legible.keeps recorded) _ _ _ room
      rw [appended]
      exact recorded.trans keeps

theorem ParentsOf.fullStateIn {roomId : RoomId} {stack : List ShortStateInfo}
    (sound : store.Sound)
    (parents : store.ParentsOf (store.roomidShortstatehash roomId) stack) :
    store.fullStateIn roomId = some (baseOf stack) := by
  obtain ⟨cache, loaded, _⟩ := loadParents_spec sound parents
  unfold Store.fullStateIn
  cases current : store.roomidShortstatehash roomId with
  | none =>
      rw [current] at parents
      have empty : stack = [] := parents
      subst empty
      rfl
  | some hash =>
      rw [current] at parents loaded
      obtain ⟨top, below, shape, _⟩ := parents.1.head
      subst shape
      have isLoaded := congrArg Prod.fst loaded
      simp only [loadParents] at isLoaded
      simp only [Store.fullStateOf, isLoaded]
      rfl

theorem Legible.replacesEntry (legible : store.Legible) (newPdu : Pdu)
    (roomId : RoomId)
    (room : (store.appendToState newPdu roomId).2.short.counter < u64Max) :
    store.ReplacesEntry newPdu roomId := by
  intro stateKey hash after isState appends
  rw [appendToState_state isState] at room appends
  have recorded := legible.sound.keeps_withRecord newPdu roomId
  obtain ⟨result, after', appended, keeps, replaced⟩ :=
    appendStateEvent_keeps (legible.keeps recorded) _ _ _ room
  rw [appends] at appended
  cases appended
  obtain ⟨stack, parents, proper, holds, keys⟩ := replaced hash rfl
  have isNew : (store.withRecord newPdu roomId).newEvent
      (store.short.getOrCreateShorteventid newPdu.eventId).1
      (newPdu.kind, stateKey) = appendedEvent store newPdu stateKey := by
    simp only [newEvent, withRecord_short, appendedEvent]
  rw [isNew] at proper holds
  have kept : store.ParentsOf (store.roomidShortstatehash roomId) stack := by
    unfold ParentsOf at parents ⊢
    rw [withRecord_table] at parents
    exact parents
  have row : after.short.statekeyShortstatekey (newPdu.kind, stateKey) =
      some (keyOf (appendedEvent store newPdu stateKey)) := by
    rw [keys, ← isNew]
    exact Short.getOrCreateShortstatekey_row _ _
  refine ⟨baseOf stack, kept.fullStateIn legible.sound,
    holds.fullStateOf keeps.advances.sound, proper, ?_⟩
  intro key
  constructor
  · intro other
    exact (keeps.keys (recorded.keys legible.keys)).apart _ _ _ other row
  · intro same
    rw [same]
    exact row

theorem legible_empty (cacheCapacity : Nat) :
    (empty cacheCapacity : Store Digest).Legible := by
  refine ⟨sound_empty cacheCapacity, ?_, ?_, ?_⟩
  · intro hash stored
    exact absurd rfl stored
  · intro key other id found
    cases found
  · intro key id found
    cases found

theorem Legible.setRoomState (legible : store.Legible) (roomId : RoomId)
    (hash : ShortStateHash) : (store.setRoomState roomId hash).Legible :=
  ⟨⟨legible.sound.cache, legible.sound.bounded, legible.sound.frames,
    legible.sound.positive⟩, legible.proper, legible.keys⟩

theorem Legible.loadInfo (legible : store.Legible) (hash : ShortStateHash) :
    (store.loadInfo hash).2.Legible := by
  obtain ⟨result, after, loads, keeps, _⟩ :=
    loadParents_keeps legible (some hash)
  have loaded := congrArg Prod.snd loads
  simp only [loadParents] at loaded
  rw [loaded]
  exact legible.keeps keeps

end Store

section

variable [DecidableEq Digest]
  {calculateHash : List CompressedStateEvent → Digest}

theorem step_counter_le (store : Store Digest) (request : Request) :
    store.short.counter ≤
      (step calculateHash store request).1.short.counter := by
  cases request with
  | saveState roomId state =>
      have short := store.saveState_short calculateHash roomId state.entries
      simp only [step, short]
      exact Short.getOrCreateShortstatehash_le _ _
  | setEventState eventId roomId state =>
      have short := store.setEventState_short calculateHash eventId roomId
        state.entries
      simp only [step, short]
      exact ((store.short.getOrCreateShorteventid_extends eventId).counter).trans
        (Short.getOrCreateShortstatehash_le _ _)
  | appendToState newPdu roomId => exact store.appendToState_le newPdu roomId
  | setRoomState roomId hash
  | loadShortstatehashInfo hash | clearCache => exact Nat.le_refl _

theorem legible_step {store : Store Digest} (legible : store.Legible)
    (request : Request)
    (room : (step calculateHash store request).1.short.counter < u64Max) :
    (step calculateHash store request).1.Legible := by
  cases request with
  | saveState roomId state =>
      exact legible.keeps
        (Store.saveState_keeps calculateHash legible roomId state room)
  | setEventState eventId roomId state =>
      exact legible.keeps (Store.setEventState_keeps calculateHash legible
        eventId roomId state room)
  | appendToState newPdu roomId =>
      exact legible.keeps (Store.appendToState_keeps legible newPdu roomId room)
  | setRoomState roomId hash => exact legible.setRoomState roomId hash
  | loadShortstatehashInfo hash => exact legible.loadInfo hash
  | clearCache =>
      apply legible.keeps
      apply legible.withCache
      intro entry member
      cases member

theorem legible_of_reaches {cacheCapacity : Nat}
    {history : List (StateEntry Digest)} {store : Store Digest}
    (reaches : Reaches (step calculateHash) (Store.empty cacheCapacity)
      history store)
    (room : store.short.counter < u64Max) : store.Legible := by
  induction reaches with
  | start => exact Store.legible_empty cacheCapacity
  | next request _ ih =>
      have earlier := ih (Nat.lt_of_le_of_lt (step_counter_le _ request) room)
      exact legible_step earlier request room

end

namespace Store

def withFirst (store : Store Digest) (new : CompressedStateEvent) :
    Store Digest :=
  { store with
    short := { store.short with counter := store.short.counter + 1 }
    compressor := store.compressor.saveStatediff (store.short.counter + 1)
      { added := {new}, removed := ∅, parent := none } }

theorem replaces_empty (shortstatekey : ShortStateKey) :
    replaces shortstatekey ∅ = none := by
  simp [replaces]

theorem appendToState_first (store : Store Digest) (newPdu : Pdu)
    (stateKey : StateKey) {roomId : RoomId}
    (isState : newPdu.stateKey = some stateKey)
    (unset : store.roomidShortstatehash roomId = none)
    (counter : ((store.withEvent newPdu.eventId).withKey
      (newPdu.kind, stateKey)).short.counter < u64Max) :
    (store.appendToState newPdu roomId).2 =
      ((store.withEvent newPdu.eventId).withKey
        (newPdu.kind, stateKey)).withFirst
          (appendedEvent store newPdu stateKey) := by
  have counted : ((store.withEvent newPdu.eventId).withKey
      (newPdu.kind, stateKey)).short.nextCount = _ :=
    Short.nextCount_of_lt counter
  simp only [withKey, withEvent] at counted
  rw [appendToState_state isState]
  simp only [withRecord, unset, recordPrevious, appendStateEvent, loadParents,
    baseOf, replaces_empty, withEvent, counted]
  rfl

end Store

namespace Exhausted

def topicPdu (eventId : EventId) : Pdu where
  eventId := eventId
  roomId := some "!room"
  sender := "@user:server"
  originServerTs := 0
  kind := .other "m.room.topic"
  content := .obj []
  stateKey := some ""
  prevEvents := []
  authEvents := []
  redacts := none

abbrev TopicStore := Store (List CompressedStateEvent)

/-- The stores after a first topic and after a second one, in a room whose
state is not set. -/
def topicStore : TopicStore :=
  (((Store.empty 16).withEvent "$topic").withKey
    (.other "m.room.topic", "")).withFirst (compressStateEvent 2 1)

def renamedStore : TopicStore :=
  ((topicStore.withEvent "$rename").withKey
    (.other "m.room.topic", "")).withFirst (compressStateEvent 2 4)

theorem step_topic : (step listHash (Store.empty 16)
      (.appendToState (topicPdu "$topic") "!room")).1 = topicStore :=
  Store.appendToState_first (Store.empty 16) (topicPdu "$topic") "" rfl rfl
    (by decide)

theorem step_rename : (step listHash topicStore
      (.appendToState (topicPdu "$rename") "!room")).1 = renamedStore :=
  Store.appendToState_first topicStore (topicPdu "$rename") "" rfl rfl
    (by decide)

structure Repeats (store : TopicStore) : Prop where
  unset : store.roomidShortstatehash "!room" = none
  topic : store.short.eventidShorteventid "$topic" = some 1
  rename : store.short.eventidShorteventid "$rename" = some 4
  key : store.short.statekeyShortstatekey (.other "m.room.topic", "") = some 2
  cache : store.compressor.stateinfoCache = { capacity := 16, entries := [] }

variable {store : TopicStore}

theorem withEvent_known {eventId : EventId} {id : ShortEventId}
    (row : store.short.eventidShorteventid eventId = some id) :
    store.withEvent eventId = store ∧
      (store.short.getOrCreateShorteventid eventId).1 = id := by
  constructor
  · simp only [Store.withEvent, Short.getOrCreateShorteventid, row]
  · simp only [Short.getOrCreateShorteventid, row]

theorem withKey_known {key : TypeStateKey} {id : ShortStateKey}
    (row : store.short.statekeyShortstatekey key = some id) :
    store.withKey key = store ∧
      (store.short.getOrCreateShortstatekey key).1 = id := by
  constructor
  · simp only [Store.withKey, Short.getOrCreateShortstatekey, row]
  · simp only [Short.getOrCreateShortstatekey, row]

theorem Repeats.appended (repeats : Repeats store) {eventId : EventId}
    {id : ShortEventId}
    (row : store.short.eventidShorteventid eventId = some id) :
    appendedEvent store (topicPdu eventId) "" = compressStateEvent 2 id := by
  obtain ⟨same, isId⟩ := withEvent_known row
  obtain ⟨_, isKey⟩ := withKey_known repeats.key
  simp only [appendedEvent, topicPdu, same, isId, Store.newEvent, isKey]

theorem Repeats.step (repeats : Repeats store)
    (counter : store.short.counter < u64Max) : (Rooms.step listHash store
      (.appendToState (topicPdu "$topic") "!room")).1 =
        store.withFirst (compressStateEvent 2 1) := by
  obtain ⟨sameEvent, _⟩ := withEvent_known repeats.topic
  obtain ⟨sameKey, _⟩ := withKey_known repeats.key
  have same : (store.withEvent "$topic").withKey
      (.other "m.room.topic", "") = store := by
    rw [sameEvent, sameKey]
  have first := Store.appendToState_first store (topicPdu "$topic") "" rfl
    repeats.unset (by
      simp only [topicPdu, same]
      exact counter)
  simp only [topicPdu, same] at first
  rw [← repeats.appended repeats.topic]
  exact first

theorem Repeats.next (repeats : Repeats store) :
    Repeats (store.withFirst (compressStateEvent 2 1)) :=
  ⟨repeats.unset, repeats.topic, repeats.rename, repeats.key, repeats.cache⟩

def topicDiff : StateDiff where
  added := {compressStateEvent 2 1}
  removed := ∅
  parent := none

theorem run_topics (count : Nat) : ∀ store : TopicStore, Repeats store →
      store.short.counter + (count + 1) ≤ u64Max →
      let last := (run (step listHash) store (List.replicate (count + 1)
        (.appendToState (topicPdu "$topic") "!room"))).2
      Repeats last ∧ last.short.counter = store.short.counter + (count + 1) ∧
        last.table last.short.counter = some (encodeStatediff topicDiff) := by
  induction count with
  | zero =>
      intro store repeats fits
      simp only [List.replicate, run, repeats.step fits]
      exact ⟨repeats.next, rfl, Function.update_self _ _ _⟩
  | succ count ih =>
      intro store repeats fits
      have room : store.short.counter < u64Max :=
        Nat.lt_of_lt_of_le (Nat.lt_add_of_pos_right (Nat.succ_pos _)) fits
      have later := ih (store.withFirst (compressStateEvent 2 1)) repeats.next
        (by
          simp only [Store.withFirst]
          omega)
      rw [List.replicate_succ]
      simp only [run, repeats.step room]
      obtain ⟨final, counter, stored⟩ := later
      refine ⟨final, ?_, stored⟩
      rw [counter]
      simp only [Store.withFirst]
      omega

theorem renamedStore_repeats : Repeats renamedStore :=
  ⟨rfl, by decide, by decide, by decide, rfl⟩

/-- The first topic is appended again and again, and the last hash that a call
can answer with becomes the state of the room. -/
def requests (count : Nat) : List Request :=
  [.appendToState (topicPdu "$topic") "!room",
      .appendToState (topicPdu "$rename") "!room"] ++
    List.replicate (count + 1)
      (.appendToState (topicPdu "$topic") "!room") ++
    [.setRoomState "!room" u64Max]

def topicFrame : ShortStateInfo where
  added := {compressStateEvent 2 1}
  removed := ∅
  shortstatehash := u64Max
  fullState := {compressStateEvent 2 1}

def topicCache : LruCache ShortStateHash (List ShortStateInfo) where
  capacity := 16
  entries := [(u64Max, [topicFrame])]

theorem topicDiff_keyed : Keyed topicDiff.added := by
  intro event member
  rw [Finset.mem_singleton.mp member]
  decide

theorem topicFrame_layered : Layered [topicFrame] := by
  refine .cons .nil ⟨?_, ?_⟩ ?_
  · intro item _
    exact Finset.notMem_empty item
  · intro item member
    cases member
  · simp [topicFrame, Diff.apply, baseOf]

theorem replaces_topic :
    replaces 2 topicFrame.fullState = some (compressStateEvent 2 1) := by
  simp [replaces, topicFrame, parseCompressedStateEvent, compressStateEvent]

theorem nextCount_exhausted {short : Short (List CompressedStateEvent)}
    (exhausted : short.counter = u64Max) : short.nextCount = (u64Max, short) := by
  have overflows : ¬ u64Max + 1 ≤ u64Max := Nat.not_succ_le_self _
  simp only [Short.nextCount, nextCounter, exhausted, overflows, if_false]
  rw [← exhausted]

theorem load_topic {compressor : StateCompressor}
    (cache : compressor.stateinfoCache = { capacity := 16, entries := [] })
    (stored : compressor.shortstatehashStatediff u64Max =
      some (encodeStatediff topicDiff)) :
    loadShortstatehashInfo compressor u64Max =
      (.ok [topicFrame], { compressor with stateinfoCache := topicCache }) := by
  have decoded : decodeStatediff (encodeStatediff topicDiff) = .ok topicDiff :=
    decodeStatediff_encodeStatediff topicDiff_keyed (by simp [topicDiff])
  have missed : compressor.stateinfoCache.getMut u64Max =
      (none, compressor.stateinfoCache) := by
    rw [cache]
    rfl
  have root : topicDiff.parent = none := rfl
  simp only [loadShortstatehashInfo, loadWithin, missed, newShortstatehashInfo,
    getStatediff, stored, decoded, root]
  rw [cache]
  rfl

theorem load_cached {compressor : StateCompressor}
    (cache : compressor.stateinfoCache = topicCache) :
    (loadShortstatehashInfo compressor u64Max).1 = .ok [topicFrame] := by
  have hit : compressor.stateinfoCache.getMut u64Max =
      (some [topicFrame], topicCache) := by
    rw [cache]
    simp [LruCache.getMut, LruCache.touch, topicCache]
  simp only [loadShortstatehashInfo, loadWithin, hit]

def renameDiff : Diff CompressedStateEvent where
  added := {compressStateEvent 2 4}
  removed := {compressStateEvent 2 1}

theorem renameDiff_exact : renameDiff.Exact (baseOf [topicFrame]) := by
  constructor
  · intro event member
    rw [Finset.mem_singleton.mp member]
    decide
  · intro event member
    exact member

theorem renameDiff_fits : Fits renameDiff 2 [topicFrame] := by
  have folded : foldIntoParent topicFrame.toDiff renameDiff =
      { added := {compressStateEvent 2 4}, removed := ∅ } := by
    rw [foldIntoParent_eq_squash]
    simp only [Diff.squash]
    congr 1
  simp only [Fits, folded]
  decide

theorem saveRename (store : TopicStore) :
    ∃ after, store.saveFromDiff u64Max renameDiff 2 [topicFrame] =
        (.ok (), after) ∧
      after.compressor.stateinfoCache = store.compressor.stateinfoCache := by
  obtain ⟨saved, isSaved, savedDiff⟩ := saveStateFromDiff_spec store.compressor
    u64Max [topicFrame] renameDiff 2 topicFrame_layered renameDiff_exact
    renameDiff_fits
  refine ⟨{ store with compressor := saved }, ?_, ?_⟩
  · simp only [Store.saveFromDiff, isSaved]
  · cases savedDiff with
    | on above below stored _ _ _ _ => rfl

/-- The store that the run ends in. -/
structure Ended (store : TopicStore) : Prop where
  current : store.roomidShortstatehash "!room" = some u64Max
  counter : store.short.counter = u64Max
  rename : store.short.eventidShorteventid "$rename" = some 4
  key : store.short.statekeyShortstatekey (.other "m.room.topic", "") = some 2
  cache : store.compressor.stateinfoCache = { capacity := 16, entries := [] }
  stored : store.table u64Max = some (encodeStatediff topicDiff)

/-- The counter stays where it is, and the hash of the room's state is answered
again, under which the cache has the state before. -/
theorem Ended.appendToState (ended : Ended store) :
    ∃ after, store.appendToState (topicPdu "$rename") "!room" =
        (.ok u64Max, after) ∧
      after.compressor.stateinfoCache = topicCache := by
  have event : store.short.getOrCreateShorteventid "$rename" =
      (4, store.short) := by
    simp only [Short.getOrCreateShorteventid, ended.rename]
  have key : store.short.getOrCreateShortstatekey
      (.other "m.room.topic", "") = (2, store.short) := by
    simp only [Short.getOrCreateShortstatekey, ended.key]
  have loads := load_topic ended.cache ended.stored
  have different : some (compressStateEvent 2 4) ≠
      some (compressStateEvent 2 1) := by decide
  obtain ⟨after, saved, cache⟩ := saveRename
    { store.setShortstatehash 4 u64Max with
      compressor := { store.compressor with stateinfoCache := topicCache } }
  refine ⟨after, ?_, cache⟩
  simp only [Store.appendToState, topicPdu, ended.current, event,
    Store.recordPrevious, Store.appendStateEvent, Store.loadParents,
    Store.loadInfo, Store.setShortstatehash, loads, key,
    nextCount_exhausted ended.counter, baseOf, replaces_topic,
    if_neg different]
  exact congrArg (Store.answering u64Max) saved

theorem Repeats.ended (repeats : Repeats store)
    (counter : store.short.counter = u64Max)
    (stored : store.table u64Max = some (encodeStatediff topicDiff)) :
    Ended (store.setRoomState "!room" u64Max) := by
  refine ⟨?_, counter, repeats.rename, repeats.key, repeats.cache, stored⟩
  simp only [Store.setRoomState, Function.update_self]

theorem run_requests (count : Nat) (reached : 5 + (count + 1) = u64Max) :
    Ended (run (step listHash) (Store.empty 16) (requests count)).2 := by
  obtain ⟨repeats, counter, stored⟩ := run_topics count renamedStore
    renamedStore_repeats (Nat.le_of_eq reached)
  have atEnd := counter.trans reached
  rw [atEnd] at stored
  have ended := repeats.ended atEnd stored
  rw [requests, run_append, run_append]
  simp only [run, step_topic, step_rename]
  exact ended

theorem Ended.not_replacesEntry (ended : Ended store) :
    ¬ store.ReplacesEntry (topicPdu "$rename") "!room" := by
  obtain ⟨after, appended, cache⟩ := ended.appendToState
  intro replaces
  obtain ⟨previous, _, full, _⟩ := replaces "" u64Max after rfl appended
  have cached : after.fullStateOf u64Max = some topicFrame.fullState := by
    have loaded := load_cached cache
    simp only [Store.fullStateOf, Store.loadInfo, loaded]
  have new : appendedEvent store (topicPdu "$rename") "" =
      compressStateEvent 2 4 := by
    simp only [appendedEvent, topicPdu, Store.newEvent, Store.withEvent,
      Short.getOrCreateShorteventid, ended.rename,
      Short.getOrCreateShortstatekey, ended.key]
  rw [cached, new, Option.some.injEq] at full
  have member : compressStateEvent 2 4 ∈ topicFrame.fullState := by
    rw [full]
    exact mem_replaceEntry.mpr (.inl rfl)
  exact absurd (Finset.mem_singleton.mp member) (by decide)

end Exhausted

/-- In every state that the operations reach, appending a state event replaces
its entry in the full state of the room and nothing else, as long as the
counter has not reached its last value. -/
theorem appendToState_replacesEntry [DecidableEq Digest]
    {calculateHash : List CompressedStateEvent → Digest} {cacheCapacity : Nat}
    {history : List (StateEntry Digest)} {store : Store Digest}
    (reaches : Reaches (step calculateHash) (Store.empty cacheCapacity)
      history store)
    (newPdu : Pdu) (roomId : RoomId)
    (room : (store.appendToState newPdu roomId).2.short.counter < u64Max) :
    store.ReplacesEntry newPdu roomId := by
  have earlier := Nat.lt_of_le_of_lt (store.appendToState_le newPdu roomId) room
  exact (legible_of_reaches reaches earlier).replacesEntry newPdu roomId room

/-- The topic of the room is set, and the state with it is the room's. -/
def titledStore : Exhausted.TopicStore :=
  (run (step listHash) (Store.empty 16)
    [.appendToState (Exhausted.topicPdu "$topic") "!room",
      .setRoomState "!room" 3]).2

theorem secondTopic_replacesEntry :
    titledStore.fullStateIn "!room" = some {compressStateEvent 2 1} ∧
      (titledStore.appendToState (Exhausted.topicPdu "$rename")
        "!room").1.toOption = some 5 ∧
      (titledStore.appendToState (Exhausted.topicPdu "$rename")
        "!room").2.fullStateOf 5 = some {compressStateEvent 2 4} ∧
      titledStore.ReplacesEntry (Exhausted.topicPdu "$rename") "!room" := by
  refine ⟨by decide +kernel, by decide +kernel, by decide +kernel, ?_⟩
  exact appendToState_replacesEntry (reaches_run ..) _ _ (by decide +kernel)

/-- With the counter at its last value, the second topic is answered with the
hash of the state that has the first one, and loading it gives that state. -/
theorem exhausted_not_replacesEntry : ¬ (run (step listHash) (Store.empty 16)
      (Exhausted.requests (2 ^ 64 - 7))).2.ReplacesEntry
        (Exhausted.topicPdu "$rename") "!room" :=
  (Exhausted.run_requests (2 ^ 64 - 7) (by decide)).not_replacesEntry

end ArcanaServer.Rooms
